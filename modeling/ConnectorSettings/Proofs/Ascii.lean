/-
This file proves which pairs can be written as properties text in printable ASCII and read back:
those whose characters all have numbers of at most sixteen bits.

In the written form a character is either escaped as it is in any written text, so that all that is
known of such texts holds of it, or spelled out by the numbers of its code units. A single code unit
is the number of the character, and is decoded as that. A pair of surrogates denotes a character
only when it is read as a pair; decoding takes one escape at a time, and half of a pair is no
character, so a line with such a pair is malformed.
-/

import ConnectorSettings.Proofs.Breaks
import ConnectorSettings.Proofs.Escapes
import ConnectorSettings.Properties.Ascii

namespace ConnectorSettings

namespace Properties

/-! ### Escapes by number -/

theorem hexValue?_upperDigitOf {value : Nat} (small : value < 16) :
    Text.hexValue? (upperDigitOf value) = some value := by
  have digits : ∀ digit : Fin 16, Text.hexValue? (upperDigitOf digit) = some digit.val := by decide
  exact digits ⟨value, small⟩

theorem hasMeaning_upperDigitOf {value : Nat} (small : value < 16) :
    hasMeaning (upperDigitOf value) = false := by
  have digits : ∀ digit : Fin 16, hasMeaning (upperDigitOf digit) = false := by decide
  exact digits ⟨value, small⟩

theorem upperDigitOf_ne_plus {value : Nat} (small : value < 16) : upperDigitOf value ≠ '+' := by
  have digits : ∀ digit : Fin 16, upperDigitOf digit ≠ '+' := by decide
  exact digits ⟨value, small⟩

/-- A written number is decoded as the character that it is the number of. -/
theorem decode?_numberEscape {unit : Nat} (small : unit < 0x10000) (text : List Char) :
    decode? (numberEscape unit ++ text) =
      (charOfNumber? unit).bind fun char => (decode? text).map (char :: ·) := by
  have digit (number : Nat) : number % 16 < 16 := Nat.mod_lt number (by decide)
  have spelled : Text.readDigits? 16 [upperDigitOf (unit / 0x1000 % 16),
      upperDigitOf (unit / 0x100 % 16), upperDigitOf (unit / 0x10 % 16),
      upperDigitOf (unit % 16)] = some unit := by
    refine Text.readDigits?_eq_some_iff.mpr ⟨List.cons_ne_nil _ _, _,
      .cons (hexValue?_upperDigitOf (digit _)) (.cons (hexValue?_upperDigitOf (digit _))
        (.cons (hexValue?_upperDigitOf (digit _)) (.cons (hexValue?_upperDigitOf (digit _))
          .nil))), ?_⟩
    simp only [List.foldl_cons, List.foldl_nil]
    omega
  show decode? ('\\' :: 'u' :: _ :: _ :: _ :: _ :: text) = _
  rw [decode?_number, numberedChar?_unsigned (upperDigitOf_ne_plus (digit _)), spelled]
  rfl

theorem guarded_numberEscape (unit : Nat) {text : List Char} (rest : Guarded text) :
    Guarded (numberEscape unit ++ text) := by
  have plain (number : Nat) : hasMeaning (upperDigitOf (number % 16)) = false :=
    hasMeaning_upperDigitOf (Nat.mod_lt number (by decide))
  exact .pair (by decide) (by decide)
    (.plain (plain _) (.plain (plain _) (.plain (plain _) (.plain (plain _) rest))))

/-! ### Characters -/

/-- The character has a number of at most sixteen bits. -/
def InBasicPlane (char : Char) : Prop :=
  char.toNat < 0x10000

instance : DecidablePred InBasicPlane := fun char => inferInstanceAs (Decidable (char.toNat < _))

/-- All characters of the text are such. -/
def AllBasic (text : List Char) : Prop :=
  ∀ char ∈ text, InBasicPlane char

instance : DecidablePred AllBasic := fun text => text.decidableBAll InBasicPlane

theorem allBasic_cons {char : Char} {text : List Char} :
    AllBasic (char :: text) ↔ InBasicPlane char ∧ AllBasic text :=
  List.forall_mem_cons

theorem allBasic_append {left right : List Char} :
    AllBasic (left ++ right) ↔ AllBasic left ∧ AllBasic right :=
  List.forall_mem_append

theorem charOfNumber?_toNat (char : Char) : charOfNumber? char.toNat = some char :=
  charOfNumber?_eq_some_iff.mpr ⟨char.valid, (Char.ofNat_toNat char).symm⟩

/-- Half of a pair of surrogates is the number of no character. -/
theorem charOfNumber?_surrogate {unit : Nat} (high : 0xD800 ≤ unit) (low : unit < 0xE000) :
    charOfNumber? unit = none := by
  have invalid : ¬ unit.isValidChar := by
    rintro (small | ⟨large, -⟩)
    · omega
    · omega
  rw [charOfNumber?, if_neg invalid]

theorem codeUnits_of_basic {char : Char} (basic : InBasicPlane char) :
    codeUnits char = [char.toNat] :=
  if_pos basic

/-- Beyond the basic plane the first code unit is half of a pair. -/
theorem codeUnits_of_not_basic {char : Char} (beyond : ¬ InBasicPlane char) :
    ∃ high low, codeUnits char = [high, low] ∧ 0xD800 ≤ high ∧ high < 0xDC00 := by
  refine ⟨_, _, if_neg beyond, ?_, ?_⟩
  · omega
  · have bound : char.toNat < 0x110000 := by
      rcases char.valid with small | ⟨-, small⟩
      · exact Nat.lt_trans small (by decide)
      · exact small
    omega

theorem decode?_codeUnits (char : Char) (text : List Char) :
    decode? ((codeUnits char).flatMap numberEscape ++ text) =
      if InBasicPlane char then (decode? text).map (char :: ·) else none := by
  by_cases basic : InBasicPlane char
  · rw [if_pos basic, codeUnits_of_basic basic, List.flatMap_singleton,
      decode?_numberEscape basic, charOfNumber?_toNat]
    rfl
  · obtain ⟨high, low, units, least, most⟩ := codeUnits_of_not_basic basic
    rw [if_neg basic, units, List.flatMap_cons, List.append_assoc,
      decode?_numberEscape (by omega), charOfNumber?_surrogate least (by omega)]
    rfl

/-- A character is escaped as in any written text, or else spelled out by number. -/
inductive AsciiForm (char : Char) : List Char → Prop
  | escaped {written : List Char} (form : Form char written) (basic : InBasicPlane char) :
      AsciiForm char written
  | numbers : AsciiForm char ((codeUnits char).flatMap numberEscape)

theorem hasMeaning_of_mem_asciiMeanings {char : Char} (member : char ∈ asciiMeanings) :
    hasMeaning char = true ∧ InBasicPlane char := by
  simp only [asciiMeanings, List.mem_cons, List.not_mem_nil, or_false] at member
  rcases member with rfl | rfl | rfl | rfl | rfl | rfl <;> decide

/-- Of the printable characters all that have a meaning are listed. -/
theorem form_of_printable {char : Char} (printable : isPrintableAscii char = true)
    (other : char ∉ asciiMeanings) : Form char [char] ∧ InBasicPlane char := by
  obtain ⟨least, most⟩ := Bool.and_eq_true_iff.mp printable
  have lower : 32 ≤ char.toNat := of_decide_eq_true least
  have upper : char.toNat ≤ 126 := of_decide_eq_true most
  simp only [asciiMeanings, List.mem_cons, List.not_mem_nil, or_false, not_or] at other
  obtain ⟨backslash, equals, colon, hash, mark, space⟩ := other
  have noSpace : char.toNat ≠ 32 := fun same => space (Char.toNat_inj.mp same)
  have noBlank : Text.isBlank char = false := by
    simp [Text.isBlank]
    omega
  refine ⟨.plain ?_, Nat.lt_of_le_of_lt upper (by decide)⟩
  simp [hasMeaning, backslash, equals, colon, hash, mark, noBlank]

theorem asciiForm_spec (char : Char) : AsciiForm char (asciiForm char) := by
  by_cases tab : char = '\t'
  · exact tab ▸ .escaped (form_escapedForm '\t') (by decide)
  by_cases feed : char = '\n'
  · exact feed ▸ .escaped (form_escapedForm '\n') (by decide)
  by_cases carriage : char = '\r'
  · exact carriage ▸ .escaped (form_escapedForm '\r') (by decide)
  by_cases page : char = '\x0c'
  · exact page ▸ .escaped (form_escapedForm '\x0c') (by decide)
  rw [asciiForm, if_neg tab, if_neg feed, if_neg carriage, if_neg page]
  by_cases meaning : char ∈ asciiMeanings
  · obtain ⟨known, basic⟩ := hasMeaning_of_mem_asciiMeanings meaning
    obtain ⟨stands, noNumber⟩ := escapedChar_of_hasMeaning known
    rw [if_pos (List.contains_iff_mem.mpr meaning)]
    exact .escaped (.pair stands noNumber feed carriage) basic
  rw [if_neg (mt List.contains_iff_mem.mp meaning)]
  by_cases printable : isPrintableAscii char = true
  · obtain ⟨form, basic⟩ := form_of_printable printable meaning
    exact if_pos printable ▸ .escaped form basic
  · exact if_neg printable ▸ .numbers

theorem asciiForm_ne_nil (char : Char) : asciiForm char ≠ [] := by
  have spec := asciiForm_spec char
  generalize asciiForm char = written at spec
  cases spec with
  | escaped form _ => cases form <;> exact List.cons_ne_nil _ _
  | numbers =>
    by_cases basic : InBasicPlane char
    · rw [codeUnits_of_basic basic]
      exact List.cons_ne_nil _ _
    · obtain ⟨_, _, units, -⟩ := codeUnits_of_not_basic basic
      rw [units]
      exact List.cons_ne_nil _ _

theorem guarded_asciiForm_append (char : Char) {text : List Char} (rest : Guarded text) :
    Guarded (asciiForm char ++ text) := by
  have spec := asciiForm_spec char
  generalize asciiForm char = written at spec
  cases spec with
  | escaped form _ => exact form.guarded_append rest
  | numbers =>
    induction codeUnits char with
    | nil => exact rest
    | cons unit _ inductionHypothesis =>
      rw [List.flatMap_cons, List.append_assoc]
      exact guarded_numberEscape unit inductionHypothesis

/-- A written character is decoded if it is in the basic plane, and makes its text malformed if it
is not. -/
theorem decode?_asciiForm_append (char : Char) (text : List Char) :
    decode? (asciiForm char ++ text) =
      if InBasicPlane char then (decode? text).map (char :: ·) else none := by
  have spec := asciiForm_spec char
  generalize asciiForm char = written at spec
  cases spec with
  | escaped form basic => rw [if_pos basic, form.decode?_append]
  | numbers => exact decode?_codeUnits char text

theorem decode?_innerAsciiForm_append (char : Char) (text : List Char) :
    decode? (innerAsciiForm char ++ text) =
      if InBasicPlane char then (decode? text).map (char :: ·) else none := by
  by_cases space : char = ' '
  · have basic : InBasicPlane char := space ▸ by decide
    rw [innerAsciiForm, if_pos space, if_pos basic, space, List.singleton_append,
      decode?_cons (by decide)]
  · rw [innerAsciiForm, if_neg space, decode?_asciiForm_append]

/-! ### Texts -/

theorem decode?_flatMap {form : Char → List Char}
    (decodes : ∀ char text, decode? (form char ++ text) =
      if InBasicPlane char then (decode? text).map (char :: ·) else none) (text : List Char) :
    decode? (text.flatMap form) =
      if AllBasic text then some text else none := by
  induction text with
  | nil => rfl
  | cons char rest inductionHypothesis =>
    rw [List.flatMap_cons, decodes, inductionHypothesis]
    by_cases basic : InBasicPlane char
    · by_cases others : AllBasic rest
      · rw [if_pos basic, if_pos others, if_pos (allBasic_cons.mpr ⟨basic, others⟩)]
        rfl
      · rw [if_pos basic, if_neg others, if_neg fun all => others (allBasic_cons.mp all).2]
        rfl
    · rw [if_neg basic, if_neg fun all => basic (allBasic_cons.mp all).1]

theorem decode?_asciiKey (key : List Char) :
    decode? (asciiKey key) = if AllBasic key then some key else none :=
  decode?_flatMap decode?_asciiForm_append key

theorem decode?_asciiValue (value : List Char) :
    decode? (asciiValue value) =
      if AllBasic value then some value else none := by
  cases value with
  | nil => rfl
  | cons first rest =>
    -- Both forms of a character are decoded in the same way, so the text is one that is decoded as
    -- such.
    have same : decode? (asciiValue (first :: rest)) =
        decode? ((first :: rest).flatMap innerAsciiForm) := by
      rw [asciiValue, List.flatMap_cons, decode?_asciiForm_append, decode?_innerAsciiForm_append]
    rw [same, decode?_flatMap decode?_innerAsciiForm_append]

theorem guarded_asciiKey (key : List Char) : Guarded (asciiKey key) := by
  induction key with
  | nil => exact .nil
  | cons char _ inductionHypothesis => exact guarded_asciiForm_append char inductionHypothesis

theorem guarded_asciiForm (char : Char) : Guarded (asciiForm char) :=
  List.append_nil (asciiForm char) ▸ guarded_asciiForm_append char .nil

theorem isContinued_innerAsciiForm_append (char : Char) (text : List Char) :
    isContinued (innerAsciiForm char ++ text) = isContinued text := by
  unfold innerAsciiForm
  split
  · exact isContinued_cons (by decide) text
  · exact (guarded_asciiForm char).isContinued_append text

theorem isContinued_asciiValue (value : List Char) : isContinued (asciiValue value) = false := by
  have inner (text : List Char) : isContinued (text.flatMap innerAsciiForm) = false := by
    induction text with
    | nil => rfl
    | cons char rest inductionHypothesis =>
      rw [List.flatMap_cons, isContinued_innerAsciiForm_append, inductionHypothesis]
  cases value with
  | nil => rfl
  | cons first rest => rw [asciiValue, (guarded_asciiForm first).isContinued_append, inner]

/-- No character of a written value ends a line. -/
theorem asciiValue_ends_no_line {value : List Char} :
    ∀ char ∈ asciiValue value, char ≠ '\n' ∧ char ≠ '\r' := by
  have inner (char : Char) : ∀ sign ∈ innerAsciiForm char, sign ≠ '\n' ∧ sign ≠ '\r' := by
    unfold innerAsciiForm
    split
    · intro sign member
      obtain rfl := List.mem_singleton.mp member
      decide
    · exact (guarded_asciiForm char).ends_no_line
  cases value with
  | nil => exact nofun
  | cons first rest =>
    intro sign member
    rcases List.mem_append.mp member with member | member
    · exact (guarded_asciiForm first).ends_no_line sign member
    · obtain ⟨char, -, member⟩ := List.mem_flatMap.mp member
      exact inner char sign member

theorem head?_asciiValue (value : List Char) :
    ∀ char ∈ (asciiValue value).head?, char = '\\' ∨ Meaningless char := by
  cases value with
  | nil => exact nofun
  | cons first rest =>
    have starts := (guarded_asciiForm first).head?
    rw [asciiValue]
    cases written : asciiForm first with
    | nil => exact absurd written (asciiForm_ne_nil first)
    | cons _ _ =>
      rw [written] at starts
      exact starts

/-! ### Lines -/

/-- The ends of a line, and none at the end of a text. -/
def lineEnds : List String := ["", "\n", "\r\n"]

theorem physicalLines_ended {line : List Char} (filled : line ≠ [])
    (oneLine : ∀ char ∈ line, char ≠ '\n' ∧ char ≠ '\r') {ending : String}
    (ends : ending ∈ lineEnds) : physicalLines (line ++ ending.toList) = [line] := by
  have noFeed : '\n' ∉ line := fun member => (oneLine _ member).1 rfl
  have noReturn : line.getLast? ≠ some '\r' := fun last =>
    (oneLine _ (List.mem_of_getLast? last)).2 rfl
  simp only [lineEnds, List.mem_cons, List.not_mem_nil, or_false] at ends
  rcases ends with rfl | rfl | rfl
  · rw [String.toList_empty, List.append_nil, physicalLines_of_not_mem noFeed filled]
  · show physicalLines (line ++ ['\n']) = _
    rw [physicalLines_line noFeed, withoutReturn_of_getLast? noReturn]
    rfl
  · have whole : '\n' ∉ line ++ ['\r'] := by simp [noFeed]
    show physicalLines (line ++ ['\r', '\n']) = _
    rw [List.append_cons, physicalLines_line whole, withoutReturn_concat]
    rfl

/-- A line that begins an entry, and that nothing in it ends or continues, is a logical line. -/
theorem logicalLines_ended {line : List Char} (filled : line ≠ [])
    (starts : ∀ char ∈ line.head?, char = '\\' ∨ Meaningless char)
    (oneLine : ∀ char ∈ line, char ≠ '\n' ∧ char ≠ '\r') (complete : isContinued line = false)
    {ending : String} (ends : ending ∈ lineEnds) :
    logicalLines (line ++ ending.toList) = [⟨1, line⟩] := by
  have trimmed := trimStart_of_starts starts
  rw [logicalLines, physicalLines_ended filled oneLine ends, joinLines_cons, trimmed,
    isSkipped_of_starts filled starts, complete, extended, trimmed, continuedBody, complete]
  rfl

/-! ### Pairs -/

theorem toList_asciiLine (key value : String) :
    (asciiLine key value).toList = asciiKey key.toList ++ '=' :: asciiValue value.toList :=
  String.toList_ofList

theorem asciiKey_ne_nil {key : String} (named : key ≠ "") : asciiKey key.toList ≠ [] := by
  cases chars : key.toList with
  | nil => exact absurd (String.toList_eq_nil_iff.mp chars) named
  | cons first _ => simp [asciiKey, asciiForm_ne_nil first]

/-- The line of a pair is its only logical line. -/
theorem logicalLines_asciiLine {key value : String} (named : key ≠ "") {ending : String}
    (ends : ending ∈ lineEnds) :
    logicalLines (asciiLine key value ++ ending).toList =
      [⟨1, (asciiLine key value).toList⟩] := by
  have isKey := guarded_asciiKey key.toList
  have filled := asciiKey_ne_nil named
  rw [String.toList_append, toList_asciiLine]
  refine logicalLines_ended (fun nothing => ?_) ?_ (fun char member => ?_) ?_ ends
  · exact filled (List.append_eq_nil_iff.mp nothing).1
  · rw [List.head?_append_of_ne_nil _ filled]
    exact isKey.head?
  · rcases List.mem_append.mp member with inKey | member
    · exact isKey.ends_no_line char inKey
    · rcases List.mem_cons.mp member with rfl | inValue
      · decide
      · exact asciiValue_ends_no_line char inValue
  · rw [isKey.isContinued_append, isContinued_cons (by decide), isContinued_asciiValue]

/-- Reading takes the line apart where writing has put it together. -/
theorem raw_asciiLine (key value : String) :
    rawKey (asciiLine key value).toList = asciiKey key.toList ∧
      rawValue (asciiLine key value).toList = asciiValue value.toList := by
  have split : splitKey (asciiLine key value).toList =
      (asciiKey key.toList, '=' :: asciiValue value.toList) := by
    rw [toList_asciiLine]
    exact (guarded_asciiKey key.toList).splitKey_append (by rintro char ⟨⟩; decide)
  refine ⟨congrArg Prod.fst split, ?_⟩
  have isGap : Gap ['='] := ⟨[], .equals, [], rfl, nofun, nofun⟩
  rw [rawValue, split]
  refine isGap.dropSeparator_append fun char first => ?_
  rcases head?_asciiValue value.toList char first with rfl | meaningless
  · decide
  · exact ⟨meaningless.noSign.1, meaningless.noSign.2, meaningless.noBlank⟩

theorem entry?_asciiLine {key value : String} (named : key ≠ "") :
    entry? (asciiLine key value).toList =
      if AllBasic (key.toList ++ value.toList) then some (key, value) else none := by
  obtain ⟨sameKey, sameValue⟩ := raw_asciiLine key value
  split
  · next basic =>
    obtain ⟨basicKey, basicValue⟩ := allBasic_append.mp basic
    rw [entry?_eq_some_iff, sameKey, sameValue, decode?_asciiKey, decode?_asciiValue,
      if_pos basicKey, if_pos basicValue]
    exact ⟨rfl, named, rfl⟩
  · next beyond =>
    refine Option.eq_none_iff_forall_ne_some.mpr fun pair accepted => beyond ?_
    obtain ⟨readKey, -, readValue⟩ := entry?_eq_some_iff.mp accepted
    rw [sameKey, decode?_asciiKey, Option.ite_none_right_eq_some] at readKey
    rw [sameValue, decode?_asciiValue, Option.ite_none_right_eq_some] at readValue
    exact allBasic_append.mpr ⟨readKey.1, readValue.1⟩

/-- Reading the line of a pair gives the pair back, however the line ends. -/
def ReadsBack (key value : String) : Prop :=
  ∀ ending ∈ lineEnds,
    parse (asciiLine key value ++ ending) = .ok (SettingsMap.ofList [(key, value)])

/-- A pair is read back from printable ASCII exactly if all of its characters are in the basic
plane, and otherwise its line is malformed. -/
theorem readsBack_iff (key value : String) (named : key ≠ "") :
    (ReadsBack key value ↔ AllBasic (key.toList ++ value.toList)) ∧
    ((∃ char ∈ key.toList ++ value.toList, ¬ InBasicPlane char) → ∀ ending ∈ lineEnds,
      parse (asciiLine key value ++ ending) = .error ⟨1, asciiLine key value⟩) := by
  have read : ∀ ending ∈ lineEnds, parse (asciiLine key value ++ ending) =
      if AllBasic (key.toList ++ value.toList) then .ok (SettingsMap.ofList [(key, value)])
      else .error ⟨1, asciiLine key value⟩ := by
    intro ending ends
    rw [parse, entries, logicalLines_asciiLine named ends, List.mapM_cons, entryOf,
      entry?_asciiLine named]
    by_cases basic : AllBasic (key.toList ++ value.toList)
    · rw [if_pos basic, if_pos basic]
      rfl
    · rw [if_neg basic, if_neg basic, String.ofList_toList]
      rfl
  constructor
  · constructor
    · intro back
      have found := back "" (by decide)
      rw [read "" (by decide)] at found
      by_contra beyond
      rw [if_neg beyond] at found
      cases found
    · intro basic ending ends
      rw [read ending ends, if_pos basic]
  · rintro ⟨char, member, beyond⟩ ending ends
    rw [read ending ends, if_neg fun basic => beyond (basic char member)]

/-- Blanks at both ends, a key like a comment, control characters, and letters of other scripts. -/
theorem readsBack_iff_unusual_texts :
    "# k\u00e9y" ≠ "" ∧ ReadsBack "# k\u00e9y" "  \u2028\x7f \uffff=\t " := by
  have named : "# k\u00e9y" ≠ "" := by decide
  exact ⟨named, (readsBack_iff _ _ named).1.mpr (by decide)⟩

/-- A character of two code units is written as a pair of surrogates and not read back. -/
theorem surrogates_not_paired :
    asciiLine "a" "𝄞" = "a=\\uD834\\uDD1E" ∧
      parse "a=\\uD834\\uDD1E" = .error ⟨1, "a=\\uD834\\uDD1E"⟩ ∧ ¬ ReadsBack "a" "𝄞" := by
  refine ⟨by decide, by decide, fun back => ?_⟩
  exact absurd (back "" (by decide)) (by decide)

end Properties

end ConnectorSettings
