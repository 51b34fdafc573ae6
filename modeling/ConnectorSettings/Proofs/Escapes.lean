/-
This file proves which escapes by number a properties text may hold: what has to follow `\u` in a
key or value, which character it stands for, and that anything else makes the entry malformed.

An escape begins at a backslash in front of which an even number of backslashes stands. Decoding
looks at the text from its beginning and never counts; but if it succeeds, what it has read in front
of such a backslash is complete, so the text can be parted there and the two parts decoded for
themselves. No number reaches across, for a backslash is no digit.

The number should have four base-sixteen digits. The reading of numbers lets the first of them be a
plus sign, and this is the only thing beside four digits that is accepted.
-/

import ConnectorSettings.Proofs.Writing
import Mathlib.Data.List.Forall2

namespace ConnectorSettings

namespace Text

theorem hexValue?_lt {char : Char} {value : Nat} (digit : hexValue? char = some value) :
    value < 16 := by
  unfold hexValue? at digit
  split at digit
  · next range =>
    have upper : char.toNat ≤ 57 := range.2
    obtain rfl := Option.some.inj digit
    show char.toNat - 48 < 16
    omega
  · split at digit
    · next range =>
      have upper : char.toNat ≤ 102 := range.2
      obtain rfl := Option.some.inj digit
      show char.toNat - 97 + 10 < 16
      omega
    · split at digit
      · next range =>
        have upper : char.toNat ≤ 70 := range.2
        obtain rfl := Option.some.inj digit
        show char.toNat - 65 + 10 < 16
        omega
      · cases digit

/-- The digits have these values. -/
def Spells (digits : List Char) (values : List Nat) : Prop :=
  List.Forall₂ (fun char value => hexValue? char = some value) digits values

theorem Spells.digit {digits : List Char} {values : List Nat} (spells : Spells digits values) :
    ∀ char ∈ digits, ∃ value, hexValue? char = some value := by
  induction spells with
  | nil => exact fun _ member => absurd member List.not_mem_nil
  | cons digit _ inductionHypothesis =>
    intro char member
    rcases List.mem_cons.mp member with rfl | later
    · exact ⟨_, digit⟩
    · exact inductionHypothesis char later

/-- Reading gives the number that the values of the digits spell. -/
theorem readDigits?_eq_some_iff {digits : List Char} {number : Nat} :
    readDigits? 16 digits = some number ↔ digits ≠ [] ∧ ∃ values, Spells digits values ∧
      values.foldl (fun total value => total * 16 + value) 0 = number := by
  cases digits with
  | nil => simp [readDigits?]
  | cons first rest =>
    rw [readDigits?, List.isEmpty_cons, if_neg Bool.false_ne_true,
      and_iff_right (List.cons_ne_nil first rest)]
    -- The digits are read from the number of those in front.
    generalize first :: rest = digits, 0 = total
    induction digits generalizing total with
    | nil => simp [Spells]
    | cons char rest inductionHypothesis =>
      rw [List.foldlM_cons]
      cases digit : hexValue? char with
      | none => simp [Spells, List.forall₂_cons_left_iff, digit]
      | some value =>
        simp only [if_pos (hexValue?_lt digit), Option.bind_eq_bind, Option.bind_some,
          inductionHypothesis, Spells, List.forall₂_cons_left_iff, digit]
        constructor
        · rintro ⟨values, spells, same⟩
          exact ⟨value :: values, ⟨value, values, rfl, spells, rfl⟩, same⟩
        · rintro ⟨_, ⟨_, values, ⟨⟩, spells, rfl⟩, same⟩
          exact ⟨values, spells, same⟩

end Text

namespace Properties

/-! ### Numbers -/

/-- The text begins with so many base-sixteen digits, and these spell the number. -/
def BeginsWithDigits (count : Nat) (text : List Char) (number : Nat) (rest : List Char) : Prop :=
  ∃ digits values, text = digits ++ rest ∧ digits.length = count ∧ Text.Spells digits values ∧
    number = values.foldl (fun total value => total * 16 + value) 0

/-- The text begins with four base-sixteen digits that spell the number. -/
def FourDigits (text : List Char) (number : Nat) (rest : List Char) : Prop :=
  BeginsWithDigits 4 text number rest

/-- The text begins with a plus sign and three base-sixteen digits that spell the number. -/
def SignedDigits (text : List Char) (number : Nat) (rest : List Char) : Prop :=
  ∃ unsigned, text = '+' :: unsigned ∧ BeginsWithDigits 3 unsigned number rest

theorem charOfNumber?_eq_some_iff {number : Nat} {char : Char} :
    charOfNumber? number = some char ↔ number.isValidChar ∧ char = Char.ofNat number := by
  rw [charOfNumber?, Option.ite_none_right_eq_some, Option.some.injEq, eq_comm (a := char)]

theorem readDigits?_eq_some_iff_begins {digits : List Char} (filled : digits ≠ []) {number : Nat}
    (rest : List Char) : Text.readDigits? 16 digits = some number ↔
      BeginsWithDigits digits.length (digits ++ rest) number rest := by
  rw [Text.readDigits?_eq_some_iff, and_iff_right filled]
  constructor
  · rintro ⟨values, spells, rfl⟩
    exact ⟨digits, values, rfl, rfl, spells, rfl⟩
  · rintro ⟨others, values, same, sameLength, spells, rfl⟩
    obtain ⟨rfl, -⟩ := List.append_inj same sameLength.symm
    exact ⟨values, spells, rfl⟩

/-- A plus sign is no digit. -/
theorem not_fourDigits_of_sign {text rest : List Char} {number : Nat} :
    ¬ FourDigits ('+' :: text) number rest := by
  rintro ⟨digits, values, same, four, spells, -⟩
  have noDigit : Text.hexValue? '+' = none := by decide
  cases spells with
  | nil => cases four
  | cons digit _ =>
    rw [← (List.cons.inj same).1, noDigit] at digit
    cases digit

theorem numberedChar?_unsigned {a b c d : Char} (noSign : a ≠ '+') :
    numberedChar? [a, b, c, d] =
      (Text.readDigits? 16 [a, b, c, d]).bind charOfNumber? := by
  unfold numberedChar?
  split
  · next same => exact absurd (List.cons.inj same).1 noSign
  · rfl

/-- Four characters after `\u` denote a character if they are digits, or three digits behind a plus
sign, and spell the number of one. -/
theorem numberedChar?_eq_some_iff {a b c d char : Char} (rest : List Char) :
    numberedChar? [a, b, c, d] = some char ↔ ∃ number,
      (FourDigits (a :: b :: c :: d :: rest) number rest ∨
        SignedDigits (a :: b :: c :: d :: rest) number rest) ∧
      number.isValidChar ∧ char = Char.ofNat number := by
  by_cases sign : a = '+'
  · subst sign
    have unsigned : numberedChar? ['+', b, c, d] =
        (Text.readDigits? 16 [b, c, d]).bind charOfNumber? := rfl
    have three : ∀ number, Text.readDigits? 16 [b, c, d] = some number ↔
        SignedDigits ('+' :: b :: c :: d :: rest) number rest := fun number =>
      (readDigits?_eq_some_iff_begins (List.cons_ne_nil _ _) rest).trans
        ⟨fun begins => ⟨_, rfl, begins⟩, by rintro ⟨_, ⟨⟩, begins⟩; exact begins⟩
    simp only [unsigned, Option.bind_eq_some_iff, charOfNumber?_eq_some_iff, three,
      not_fourDigits_of_sign, false_or]
  · have noSign : ∀ number, ¬ SignedDigits (a :: b :: c :: d :: rest) number rest := by
      rintro number ⟨_, same, -⟩
      exact sign (List.cons.inj same).1
    have four : ∀ number, Text.readDigits? 16 [a, b, c, d] = some number ↔
        FourDigits (a :: b :: c :: d :: rest) number rest := fun number =>
      readDigits?_eq_some_iff_begins (List.cons_ne_nil _ _) rest
    simp only [numberedChar?_unsigned sign, Option.bind_eq_some_iff, charOfNumber?_eq_some_iff,
      four, noSign, or_false]

/-! ### Decoding in parts -/

theorem decode?_number (a b c d : Char) (text : List Char) :
    decode? ('\\' :: 'u' :: a :: b :: c :: d :: text) =
      (numberedChar? [a, b, c, d]).bind fun char => (decode? text).map (char :: ·) := by
  rw [decode?]
  cases numberedChar? [a, b, c, d] with
  | none => rfl
  | some char => cases decode? text <;> rfl

theorem four_or_short (text : List Char) :
    (∃ a b c d rest, text = a :: b :: c :: d :: rest) ∨ text.length < 4 := by
  rcases text with _ | ⟨a, _ | ⟨b, _ | ⟨c, _ | ⟨d, rest⟩⟩⟩⟩
  all_goals simp

theorem decode?_number_short {text : List Char} (short : text.length < 4) :
    decode? ('\\' :: 'u' :: text) = none := by
  rw [decode?]
  rintro a b c d rest rfl
  simp only [List.length_cons] at short
  omega

/-- No backslash is part of a number. -/
theorem numberedChar?_of_backslash {a b c d : Char} (member : '\\' ∈ [a, b, c, d]) :
    numberedChar? [a, b, c, d] = none := by
  refine Option.eq_none_iff_forall_ne_some.mpr fun char read => ?_
  have noDigit : ∀ {count number} {text : List Char}, BeginsWithDigits count text number [] →
      '\\' ∉ text := by
    rintro _ _ _ ⟨digits, values, rfl, -, spells, -⟩ inside
    rw [List.append_nil] at inside
    obtain ⟨value, digit⟩ := spells.digit _ inside
    have none : Text.hexValue? '\\' = none := by decide
    exact Option.some_ne_none value (digit.symm.trans none)
  obtain ⟨number, four | ⟨unsigned, same, three⟩, -, -⟩ := (numberedChar?_eq_some_iff []).mp read
  · exact noDigit four member
  · rw [same] at member
    exact noDigit three ((List.mem_cons.mp member).resolve_left (by decide))

/-- A number does not change the parity at the end. -/
theorem isContinued_number {a b c d char : Char} (number : numberedChar? [a, b, c, d] = some char)
    (text : List Char) :
    isContinued ('\\' :: 'u' :: a :: b :: c :: d :: text) = isContinued text := by
  have noBackslash : '\\' ∉ [a, b, c, d] := by
    intro member
    rw [numberedChar?_of_backslash member] at number
    cases number
  simp only [List.mem_cons, List.not_mem_nil, or_false, not_or, eq_comm (a := '\\')]
    at noBackslash
  obtain ⟨noA, noB, noC, noD⟩ := noBackslash
  rw [isContinued_pair, isContinued_cons noA, isContinued_cons noB, isContinued_cons noC,
    isContinued_cons noD]

/-- A number does not reach across a backslash. -/
theorem decode?_number_broken {short : List Char} (few : short.length < 4) (after : List Char) :
    decode? ('\\' :: 'u' :: (short ++ '\\' :: after)) = none := by
  rcases four_or_short (short ++ '\\' :: after) with ⟨a, b, c, d, rest, same⟩ | shorter
  · have member : '\\' ∈ [a, b, c, d] := by
      have first : [a, b, c, d] = (short ++ '\\' :: after).take 4 := by simp [same]
      rw [first]
      refine List.mem_of_getElem? (i := short.length) ?_
      rw [List.getElem?_take_of_lt few, List.getElem?_append_right (Nat.le_refl _), Nat.sub_self]
      rfl
    rw [same, decode?_number, numberedChar?_of_backslash member]
    rfl
  · exact decode?_number_short shorter

/-- A character is no backslash if it is neither one alone nor one in front of another character. -/
theorem ne_backslash {char : Char} {text : List Char} (notAlone : char = '\\' → text = [] → False)
    (noPair : ∀ sign rest, char = '\\' → text = sign :: rest → False) : char ≠ '\\' := by
  rintro rfl
  cases text with
  | nil => exact notAlone rfl rfl
  | cons sign rest => exact noPair sign rest rfl rfl

/-- What stands in front of a backslash that is not escaped itself is decoded for itself. -/
theorem decode?_split {before after text : List Char} (unescaped : isContinued before = false)
    (decoded : decode? (before ++ '\\' :: after) = some text) :
    ∃ front back, decode? before = some front ∧ decode? ('\\' :: after) = some back ∧
      text = front ++ back := by
  induction before using decode?.induct generalizing text with
  | case1 => exact ⟨[], text, rfl, decoded, rfl⟩
  | case2 => exact absurd unescaped (by decide)
  | case3 a b c d before inductionHypothesis =>
    rw [List.cons_append, List.cons_append, List.cons_append, List.cons_append, List.cons_append,
      List.cons_append, decode?_number, Option.bind_eq_some_iff] at decoded
    obtain ⟨char, number, decoded⟩ := decoded
    obtain ⟨tail, rest, rfl⟩ := Option.map_eq_some_iff.mp decoded
    rw [isContinued_number number] at unescaped
    obtain ⟨front, back, read, readBack, rfl⟩ := inductionHypothesis unescaped rest
    exact ⟨char :: front, back, by rw [decode?_number, number, read]; rfl, readBack, rfl⟩
  | case4 short many =>
    have few : short.length < 4 := by
      rcases four_or_short short with ⟨a, b, c, d, rest, same⟩ | few
      · exact absurd same (many a b c d rest)
      · exact few
    rw [List.cons_append, List.cons_append, decode?_number_broken few] at decoded
    cases decoded
  | case5 char before _ noNumber inductionHypothesis =>
    rw [List.cons_append, List.cons_append, decode?_pair noNumber] at decoded
    obtain ⟨tail, rest, rfl⟩ := Option.map_eq_some_iff.mp decoded
    rw [isContinued_pair] at unescaped
    obtain ⟨front, back, read, readBack, rfl⟩ := inductionHypothesis unescaped rest
    exact ⟨escapedChar char :: front, back, by rw [decode?_pair noNumber, read]; rfl, readBack, rfl⟩
  | case6 char before last _ _ other inductionHypothesis =>
    have plain := ne_backslash last other
    rw [List.cons_append, decode?_cons plain] at decoded
    obtain ⟨tail, rest, rfl⟩ := Option.map_eq_some_iff.mp decoded
    rw [isContinued_cons plain] at unescaped
    obtain ⟨front, back, read, readBack, rfl⟩ := inductionHypothesis unescaped rest
    exact ⟨char :: front, back, by rw [decode?_cons plain, read]; rfl, readBack, rfl⟩

/-! ### Escapes by number -/

/-- In the text stands an escape by number: a `u` behind a backslash that is not escaped itself. -/
structure NumberEscape (raw before after : List Char) : Prop where
  parts : raw = before ++ '\\' :: 'u' :: after
  unescaped : trailingBackslashes before % 2 = 0

theorem NumberEscape.isContinued {raw before after : List Char}
    (escape : NumberEscape raw before after) : isContinued before = false :=
  isContinued_eq_false_iff.mpr escape.unescaped

/-- Where a text is decoded, an escape in it has digits, or a plus sign for the first of them, and
what stands in front of the escape and behind the digits is decoded for itself. -/
theorem NumberEscape.decoded {raw before after text : List Char}
    (escape : NumberEscape raw before after) (decoded : decode? raw = some text) :
    ∃ number rest front back, (FourDigits after number rest ∨ SignedDigits after number rest) ∧
      number.isValidChar ∧ decode? before = some front ∧ decode? rest = some back ∧
      text = front ++ Char.ofNat number :: back := by
  rw [escape.parts] at decoded
  obtain ⟨front, tail, read, readTail, rfl⟩ := decode?_split escape.isContinued decoded
  rcases four_or_short after with ⟨a, b, c, d, rest, rfl⟩ | short
  · rw [decode?_number, Option.bind_eq_some_iff] at readTail
    obtain ⟨char, isNumber, readTail⟩ := readTail
    obtain ⟨back, readBack, rfl⟩ := Option.map_eq_some_iff.mp readTail
    obtain ⟨number, digits, valid, rfl⟩ := (numberedChar?_eq_some_iff rest).mp isNumber
    exact ⟨number, rest, front, back, digits, valid, read, readBack, rfl⟩
  · rw [decode?_number_short short] at readTail
    cases readTail

/-! ### Entries -/

/-- The key of a line as it is written. -/
def rawKey (line : List Char) : List Char :=
  (splitKey line).1

/-- The value of a line as it is written. -/
def rawValue (line : List Char) : List Char :=
  dropSeparator (splitKey line).2

theorem entry?_eq_some_iff {line : List Char} {key value : String} :
    entry? line = some (key, value) ↔ decode? (rawKey line) = some key.toList ∧ key ≠ "" ∧
      decode? (rawValue line) = some value.toList := by
  have text : ∀ {chars : List Char} {text : String},
      String.ofList chars = text ↔ chars = text.toList := fun {chars text} =>
    ⟨fun same => same ▸ String.toList_ofList.symm, fun same => same ▸ String.ofList_toList⟩
  show (do
    let chars ← decode? (rawKey line)
    guard (!chars.isEmpty)
    let value ← decode? (rawValue line)
    return (String.ofList chars, String.ofList value)) = some (key, value) ↔ _
  cases decode? (rawKey line) with
  | none => exact ⟨nofun, fun both => nomatch both.1⟩
  | some chars =>
    cases chars with
    | nil =>
      refine ⟨nofun, fun ⟨same, named, _⟩ => absurd ?_ named⟩
      exact (text.mpr (Option.some.inj same)).symm
    | cons char chars =>
      have named : ∀ {key : String}, char :: chars = key.toList → key ≠ "" := by
        rintro _ same rfl
        cases same
      cases decode? (rawValue line) with
      | none => exact ⟨nofun, fun both => nomatch both.2.2⟩
      | some rest =>
        simp only [guard, List.isEmpty_cons, Bool.not_false, if_true, Option.bind_eq_bind,
          Option.bind_some, Option.pure_def, Option.some.injEq, Prod.mk.injEq, text]
        exact ⟨fun both => ⟨both.1, named both.1, both.2⟩, fun all => ⟨all.1, all.2.2⟩⟩

/-- Both parts of an accepted line are decoded. -/
theorem decode?_of_part {line : List Char} {key value : String}
    (accepted : entry? line = some (key, value)) {part : List Char × String}
    (isPart : part ∈ [(rawKey line, key), (rawValue line, value)]) :
    decode? part.1 = some part.2.toList := by
  obtain ⟨readKey, -, readValue⟩ := entry?_eq_some_iff.mp accepted
  rcases List.mem_pair.mp isPart with rfl | rfl
  · exact readKey
  · exact readValue

theorem mem_raw_iff {line raw : List Char} (key value : String) :
    raw ∈ [rawKey line, rawValue line] ↔
      ∃ text, (raw, text) ∈ [(rawKey line, key), (rawValue line, value)] := by
  simp only [List.mem_pair, Prod.mk.injEq, exists_or, exists_eq_right]

theorem entryOf_eq_ok_iff {line : LogicalLine} {pair : String × String} :
    entryOf line = .ok pair ↔ entry? line.text = some pair := by
  unfold entryOf
  cases entry? line.text with
  | none => exact ⟨nofun, nofun⟩
  | some _ =>
    exact ⟨fun same => congrArg some (Except.ok.inj same),
      fun same => congrArg _ (Option.some.inj same)⟩

/-- An entry that is malformed fails the text, and is the error if all entries in front are
accepted. -/
theorem parse_of_malformed {text : String} {earlier later : List LogicalLine} {line : LogicalLine}
    (split : logicalLines text.toList = earlier ++ line :: later)
    (refused : entry? line.text = none) :
    entryOf line = .error ⟨line.number, String.ofList line.text⟩ ∧
      (∃ malformed, parse text = .error malformed) ∧
      ((∀ other ∈ earlier, ∃ pair, entryOf other = .ok pair) →
        parse text = .error ⟨line.number, String.ofList line.text⟩) := by
  have failed : entryOf line = .error ⟨line.number, String.ofList line.text⟩ :=
    entryOf_eq_error_iff.mpr ⟨refused, rfl⟩
  refine ⟨failed, ?_, fun passed => ?_⟩
  · cases parsed : parse text with
    | error malformed => exact ⟨malformed, rfl⟩
    | ok map =>
      rw [parse_eq_map, map_eq_ok_iff] at parsed
      obtain ⟨pairs, passed, -⟩ := parsed
      obtain ⟨pair, accepted⟩ := ok_of_mapM_ok passed line (split ▸ by simp)
      exact absurd (failed.symm.trans accepted) nofun
  · rw [parse_eq_map, map_eq_error_iff, entries, split]
    exact mapM_error_of_first passed failed

/-! ### The check -/

/-- Reading checks the numbers of a text: if it is read, every escape by number in a key or value is
followed by four base-sixteen digits and stands for the character with this number; and an entry in
which one is followed by anything else is malformed. -/
structure ChecksNumbers (text : String) : Prop where
  read : ∀ map, parse text = .ok map → ∀ line ∈ logicalLines text.toList, ∃ key value,
    entry? line.text = some (key, value) ∧
    ∀ part ∈ [(rawKey line.text, key), (rawValue line.text, value)], ∀ before after,
      NumberEscape part.1 before after → ∃ number rest front back, FourDigits after number rest ∧
        number.isValidChar ∧ decode? before = some front ∧ decode? rest = some back ∧
        part.2.toList = front ++ Char.ofNat number :: back
  malformed : ∀ earlier line later, logicalLines text.toList = earlier ++ line :: later →
    ∀ raw ∈ [rawKey line.text, rawValue line.text], ∀ before after,
      NumberEscape raw before after →
      (∀ number rest, FourDigits after number rest → ¬ number.isValidChar) →
      entryOf line = .error ⟨line.number, String.ofList line.text⟩ ∧
        (∃ malformed, parse text = .error malformed) ∧
        ((∀ other ∈ earlier, ∃ entry, entryOf other = .ok entry) →
          parse text = .error ⟨line.number, String.ofList line.text⟩)

/-- Reading checks the numbers of a text exactly if no entry that is accepted has a plus sign in the
place of the first digit. -/
theorem checksNumbers_iff (text : String) :
    ChecksNumbers text ↔ ∀ line ∈ logicalLines text.toList, ∀ pair, entry? line.text = some pair →
      ∀ raw ∈ [rawKey line.text, rawValue line.text], ∀ before after,
        ¬ NumberEscape raw before ('+' :: after) := by
  constructor
  · intro checks line member pair accepted raw isRaw before after escape
    obtain ⟨earlier, later, split⟩ := List.append_of_mem member
    have noFour : ∀ number rest, FourDigits ('+' :: after) number rest → ¬ number.isValidChar :=
      fun _ _ four => absurd four not_fourDigits_of_sign
    have refused := (checks.malformed earlier line later split raw isRaw before _ escape noFour).1
    rw [entryOf_eq_ok_iff.mpr accepted] at refused
    cases refused
  · intro unsigned
    have digits : ∀ line ∈ logicalLines text.toList, ∀ pair, entry? line.text = some pair →
        ∀ raw ∈ [rawKey line.text, rawValue line.text], ∀ before after number rest,
          NumberEscape raw before after →
          (FourDigits after number rest ∨ SignedDigits after number rest) →
          FourDigits after number rest := by
      rintro line member pair accepted raw isRaw before after number rest escape (four | signed)
      · exact four
      · obtain ⟨digits, rfl, -⟩ := signed
        exact absurd escape (unsigned line member pair accepted raw isRaw before _)
    constructor
    · intro map parsed line member
      rw [parse_eq_map, map_eq_ok_iff] at parsed
      obtain ⟨pairs, passed, -⟩ := parsed
      obtain ⟨⟨key, value⟩, accepted⟩ := ok_of_mapM_ok passed line member
      rw [entryOf_eq_ok_iff] at accepted
      refine ⟨key, value, accepted, fun part isPart before after escape => ?_⟩
      have isRaw := (mem_raw_iff key value).mpr ⟨part.2, isPart⟩
      have readPart := decode?_of_part accepted isPart
      obtain ⟨number, rest, front, back, spelled, decoded⟩ := escape.decoded readPart
      exact ⟨number, rest, front, back,
        digits line member _ accepted _ isRaw before after number rest escape spelled, decoded⟩
    · intro earlier line later split raw isRaw before after escape noFour
      have member : line ∈ logicalLines text.toList := split ▸ by simp
      have refused : entry? line.text = none := by
        by_contra held
        obtain ⟨⟨key, value⟩, accepted⟩ := Option.ne_none_iff_exists'.mp held
        obtain ⟨decoded, isPart⟩ := (mem_raw_iff key value).mp isRaw
        obtain ⟨number, rest, _, _, spelled, valid, -⟩ :=
          escape.decoded (decode?_of_part accepted isPart)
        exact noFour number rest (digits line member _ accepted raw isRaw before after number rest
          escape spelled) valid
      exact parse_of_malformed split refused

/-- A plus sign and three digits are read as the character with their number. -/
theorem plus_sign_unchecked :
    parse "a=\\u+041" = .ok (.ofList [("a", "A")]) ∧ ¬ ChecksNumbers "a=\\u+041" := by
  refine ⟨by decide, fun checks => ?_⟩
  have noFour : ∀ number rest, FourDigits "+041".toList number rest → ¬ number.isValidChar :=
    fun _ _ four => absurd four not_fourDigits_of_sign
  have refused := (checks.malformed [] ⟨1, "a=\\u+041".toList⟩ [] (by decide) "\\u+041".toList
    (by decide) [] "+041".toList ⟨by decide, by decide⟩ noFour).1
  exact absurd refused (by decide)

end Properties

end ConnectorSettings
