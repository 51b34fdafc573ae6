/-
This file proves that reading a JSON text undoes writing it, in every layout whose white space is
white space to the reader.

The writer gives a character one of three forms, and the reader takes each of them for the
character, whatever follows it. So a text is read up to its own closing quote and no further,
although it may hold quotes and backslashes of its own.

For values the statement needs a bound on the calls as well as what follows. Twice the length of
what is written is enough. A call opens a container, passes a comma or goes on to an element, and a
call of the last kind comes only behind one of the others, which take a character off the text.
-/

import ConnectorSettings.Json.Reader
import ConnectorSettings.Json

namespace ConnectorSettings

namespace Text

theorem zeroPadded_hexadecimal {number : Nat} (small : number < 0x20) :
    zeroPadded 4 (hexadecimal number) =
      ['0', '0', digitOf (number / 16), digitOf (number % 16)] := by
  by_cases single : number < 16
  · rw [hexadecimal, if_pos single, Nat.div_eq_of_lt single, Nat.mod_eq_of_lt single]
    rfl
  · have leading : number / 16 = 1 := by omega
    rw [hexadecimal, if_neg single, leading, hexadecimal, if_pos (by decide)]
    rfl

end Text

namespace Json

/-! ### Texts -/

/-- The forms in which the writer has a character inside quotes. -/
inductive WrittenAs (char : Char) : List Char → Prop
  | letter (letter : Char) (stands : escapedChar? letter = some char) :
    WrittenAs char ['\\', letter]
  | number (small : char.toNat < 0x20) :
    WrittenAs char
      ['\\', 'u', '0', '0', Text.digitOf (char.toNat / 16), Text.digitOf (char.toNat % 16)]
  | itself (notQuote : char ≠ '\x22') (notBackslash : char ≠ '\\') (large : 0x20 ≤ char.toNat) :
    WrittenAs char [char]

theorem writtenAs_escaped (char : Char) : WrittenAs char (escaped char) := by
  unfold escaped
  split
  · next same => exact same ▸ .letter '\x22' rfl
  · next notQuote =>
    split
    · next same => exact same ▸ .letter '\\' rfl
    · next notBackslash =>
      split
      · next same => exact same ▸ .letter 'b' rfl
      split
      · next same => exact same ▸ .letter 't' rfl
      split
      · next same => exact same ▸ .letter 'n' rfl
      split
      · next same => exact same ▸ .letter 'f' rfl
      split
      · next same => exact same ▸ .letter 'r' rfl
      split
      · next small =>
        rw [Text.zeroPadded_hexadecimal small]
        exact .number small
      · next large => exact .itself notQuote notBackslash (Nat.le_of_not_lt large)

theorem unit?_zeroPadded {number : Nat} (small : number < 0x20) :
    unit? '0' '0' (Text.digitOf (number / 16)) (Text.digitOf (number % 16)) = some number := by
  have cases : ∀ number : Fin 0x20,
      unit? '0' '0' (Text.digitOf (number.val / 16)) (Text.digitOf (number.val % 16)) =
        some number.val := by decide
  exact cases ⟨number, small⟩

theorem isHighSurrogate_of_lt {unit : Nat} (small : unit < 0xD800) :
    isHighSurrogate unit = false := by
  simp [isHighSurrogate, Nat.not_le.mpr small]

theorem isLowSurrogate_of_lt {unit : Nat} (small : unit < 0xDC00) :
    isLowSurrogate unit = false := by
  simp [isLowSurrogate, Nat.not_le.mpr small]

/-- A character is read as itself from each of its forms, whatever follows. -/
theorem WrittenAs.readText_append {char : Char} {written : List Char}
    (form : WrittenAs char written) (text : List Char) :
    readText (written ++ text) = consText char (readText text) := by
  cases form with
  | letter letter stands =>
    have notNumber : letter ≠ 'u' := by
      rintro rfl
      simp [escapedChar?] at stands
    simp [readText, stands, notNumber]
  | number small =>
    have notHigh : isHighSurrogate char.toNat = false := isHighSurrogate_of_lt (by omega)
    have notLow : isLowSurrogate char.toNat = false := isLowSurrogate_of_lt (by omega)
    simp [readText, unit?_zeroPadded small, notHigh, notLow, Char.ofNat_toNat]
  | itself notQuote notBackslash large =>
    simp [readText, notBackslash, Nat.not_lt.mpr large]

/-- A quoted text is read up to its closing quote, behind the opening one. -/
theorem readText_flatMap_escaped (value tail : List Char) :
    readText (value.flatMap escaped ++ '\x22' :: tail) = some (value, tail) := by
  induction value with
  | nil => simp [readText]
  | cons char value inductionHypothesis =>
    rw [List.flatMap_cons, List.append_assoc, (writtenAs_escaped char).readText_append,
      inductionHypothesis]
    rfl

theorem quote_append (value : String) (tail : List Char) :
    quote value ++ tail = '\x22' :: (value.toList.flatMap escaped ++ '\x22' :: tail) := by
  simp [quote]

/-! ### Blanks -/

/-- A layout whose white space the reader skips. -/
structure Layout.Blank (layout : Layout) : Prop where
  lineBreak : ∀ depth, ∀ char ∈ layout.lineBreak depth, isBlank char = true
  afterColon : ∀ char ∈ layout.afterColon, isBlank char = true

theorem blank_compactLayout : compactLayout.Blank :=
  ⟨fun _ _ member => absurd member List.not_mem_nil, fun _ member => absurd member List.not_mem_nil⟩

theorem blank_indentedLayout : indentedLayout.Blank where
  lineBreak := by
    intro depth char member
    rcases List.mem_cons.mp member with rfl | later
    · rfl
    · rw [List.eq_of_mem_replicate later]
      rfl
  afterColon := by
    intro char member
    rw [List.mem_singleton.mp member]
    rfl

theorem skipBlanks_append {blanks : List Char} (blank : ∀ char ∈ blanks, isBlank char = true)
    (text : List Char) : skipBlanks (blanks ++ text) = skipBlanks text :=
  List.dropWhile_append_of_pos blank

theorem skipBlanks_of_not_isBlank {char : Char} (sign : isBlank char = false) (text : List Char) :
    skipBlanks (char :: text) = char :: text := by
  simp [skipBlanks, sign]

theorem Layout.Blank.skipBlanks_lineBreak {layout : Layout} (blank : layout.Blank) {sign : Char}
    (notBlank : isBlank sign = false) (depth : Nat) (text : List Char) :
    skipBlanks (layout.lineBreak depth ++ sign :: text) = sign :: text := by
  rw [skipBlanks_append (blank.lineBreak depth), skipBlanks_of_not_isBlank notBlank]

theorem readValue_append {blanks : List Char} (blank : ∀ char ∈ blanks, isBlank char = true)
    (bound : Nat) (text : List Char) : readValue bound (blanks ++ text) = readValue bound text := by
  cases bound with
  | zero => rfl
  | succ bound => rw [readValue, readValue, skipBlanks_append blank]

theorem readItems_append {blanks : List Char} (blank : ∀ char ∈ blanks, isBlank char = true)
    (bound : Nat) (text : List Char) : readItems bound (blanks ++ text) = readItems bound text := by
  cases bound with
  | zero => rfl
  | succ bound => rw [readItems, readItems, readValue_append blank]

theorem readMembers_append {blanks : List Char} (blank : ∀ char ∈ blanks, isBlank char = true)
    (bound : Nat) (text : List Char) :
    readMembers bound (blanks ++ text) = readMembers bound text := by
  cases bound with
  | zero => rfl
  | succ bound => rw [readMembers, readMembers, skipBlanks_append blank]

/-! ### What the reader does at a sign -/

/-- Behind the opening bracket of a list that is not closed at once its items are read. -/
theorem readValue_bracket {bound : Nat} {text : List Char} {first : Char} {rest : List Char}
    (begins : skipBlanks text = first :: rest) (stays : first ≠ ']') :
    readValue (bound + 1) ('[' :: text) =
      (readItems bound (first :: rest)).map fun (items, rest) => (list items, rest) := by
  rw [readValue, skipBlanks_of_not_isBlank rfl]
  simp [begins, stays]

/-- Behind the opening brace of a record that is not closed at once its members are read. -/
theorem readValue_brace {bound : Nat} {text : List Char} {first : Char} {rest : List Char}
    (begins : skipBlanks text = first :: rest) (stays : first ≠ '\x7d') :
    readValue (bound + 1) ('\x7b' :: text) =
      (readMembers bound (first :: rest)).map fun (members, rest) => (record members, rest) := by
  rw [readValue, skipBlanks_of_not_isBlank rfl]
  simp [begins, stays]

theorem readItems_comma {bound : Nat} {input rest text : List Char} {item : Json}
    (read : readValue bound input = some (item, rest)) (sign : skipBlanks rest = ',' :: text) :
    readItems (bound + 1) input =
      (readItems bound text).map fun (items, rest) => (item :: items, rest) := by
  simp only [readItems, read, sign]

theorem readItems_bracket {bound : Nat} {input rest text : List Char} {item : Json}
    (read : readValue bound input = some (item, rest)) (sign : skipBlanks rest = ']' :: text) :
    readItems (bound + 1) input = some ([item], text) := by
  simp only [readItems, read, sign]

theorem readMembers_comma {bound : Nat} {text rest next : List Char} {name : String} {value : Json}
    (read : readValue bound text = some (value, rest)) (sign : skipBlanks rest = ',' :: next) :
    readMembers (bound + 1) (quote name ++ ':' :: text) =
      (readMembers bound next).map fun (members, rest) => ((name, value) :: members, rest) := by
  have colon : skipBlanks (':' :: text) = ':' :: text := skipBlanks_of_not_isBlank rfl text
  rw [quote_append, readMembers, skipBlanks_of_not_isBlank rfl]
  simp only [readText_flatMap_escaped, colon, read, sign, String.ofList_toList]

theorem readMembers_brace {bound : Nat} {text rest next : List Char} {name : String} {value : Json}
    (read : readValue bound text = some (value, rest)) (sign : skipBlanks rest = '\x7d' :: next) :
    readMembers (bound + 1) (quote name ++ ':' :: text) = some ([(name, value)], next) := by
  have colon : skipBlanks (':' :: text) = ':' :: text := skipBlanks_of_not_isBlank rfl text
  rw [quote_append, readMembers, skipBlanks_of_not_isBlank rfl]
  simp only [readText_flatMap_escaped, colon, read, sign, String.ofList_toList]

/-! ### Values -/

theorem exists_write_eq_cons (layout : Layout) (depth : Nat) (value : Json) :
    ∃ sign text, write layout depth value = sign :: text ∧ isBlank sign = false ∧ sign ≠ ']' := by
  match value with
  | null => exact ⟨'n', _, by rw [write], rfl, by decide⟩
  | bool true => exact ⟨'t', _, by rw [write], rfl, by decide⟩
  | bool false => exact ⟨'f', _, by rw [write], rfl, by decide⟩
  | text value => exact ⟨'\x22', _, by rw [write, quote]; rfl, rfl, by decide⟩
  | list [] => exact ⟨'[', _, by rw [write], rfl, by decide⟩
  | list (first :: rest) => exact ⟨'[', _, by rw [write]; rfl, rfl, by decide⟩
  | record [] => exact ⟨'\x7b', _, by rw [write], rfl, by decide⟩
  | record (first :: rest) => exact ⟨'\x7b', _, by rw [write]; rfl, rfl, by decide⟩

theorem exists_writeMember_eq_cons (layout : Layout) (depth : Nat) (member : String × Json) :
    ∃ text, writeMember layout depth member = '\x22' :: text :=
  ⟨_, by rw [writeMember, quote]; rfl⟩

variable {layout : Layout}

mutual

/-- A written value is read up to its end, and no further. -/
theorem readValue_write (blank : layout.Blank) (value : Json) (depth bound : Nat)
    (tail : List Char) (enough : 2 * (write layout depth value).length ≤ bound) :
    readValue bound (write layout depth value ++ tail) = some (value, tail) := by
  obtain ⟨bound, rfl⟩ : ∃ less, bound = less + 1 := by
    obtain ⟨sign, text, written, -⟩ := exists_write_eq_cons layout depth value
    rw [written, List.length_cons] at enough
    exact ⟨bound - 1, by omega⟩
  match value with
  | null | bool true | bool false | list [] | record [] =>
    rw [write]
    rfl
  | text value =>
    rw [write, quote_append, readValue, skipBlanks_of_not_isBlank rfl]
    simp [readText_flatMap_escaped]
  | list (first :: rest) =>
    simp only [write, List.append_assoc, List.cons_append, List.nil_append, List.length_append,
      List.length_cons] at enough ⊢
    have items := readItems_write blank first rest depth bound tail (by omega)
    obtain ⟨sign, text, written, notBlank, stays⟩ := exists_write_eq_cons layout (depth + 1) first
    rw [written, List.cons_append] at items ⊢
    rw [readValue_bracket (blank.skipBlanks_lineBreak notBlank _ _) stays, items]
    rfl
  | record (first :: rest) =>
    simp only [write, List.append_assoc, List.cons_append, List.nil_append, List.length_append,
      List.length_cons] at enough ⊢
    have members := readMembers_write blank first rest depth bound tail (by omega)
    obtain ⟨text, written⟩ := exists_writeMember_eq_cons layout depth first
    rw [written, List.cons_append] at members ⊢
    rw [readValue_brace (blank.skipBlanks_lineBreak rfl _ _) (by decide), members]
    rfl
termination_by bound

theorem readItems_write (blank : layout.Blank) (first : Json) (rest : List Json)
    (depth bound : Nat) (tail : List Char)
    (enough : 2 * ((write layout (depth + 1) first).length +
      (writeItems layout depth rest).length) < bound) :
    readItems bound (write layout (depth + 1) first ++ (writeItems layout depth rest ++ tail)) =
      some (first :: rest, tail) := by
  obtain ⟨bound, rfl⟩ : ∃ less, bound = less + 1 := ⟨bound - 1, by omega⟩
  have read := readValue_write blank first (depth + 1) bound
    (writeItems layout depth rest ++ tail) (by omega)
  match rest with
  | [] =>
    rw [writeItems, List.append_assoc] at read ⊢
    exact readItems_bracket read (blank.skipBlanks_lineBreak rfl depth tail)
  | second :: rest =>
    simp only [writeItems, List.append_assoc, List.cons_append, List.nil_append,
      List.length_append, List.length_cons] at enough read ⊢
    rw [readItems_comma read (skipBlanks_of_not_isBlank rfl _),
      readItems_append (blank.lineBreak _),
      readItems_write blank second rest depth bound tail (by omega)]
    rfl
termination_by bound

theorem readMembers_write (blank : layout.Blank) (first : String × Json)
    (rest : List (String × Json)) (depth bound : Nat) (tail : List Char)
    (enough : 2 * ((writeMember layout depth first).length +
      (writeMembers layout depth rest).length) < bound) :
    readMembers bound (writeMember layout depth first ++ (writeMembers layout depth rest ++ tail)) =
      some (first :: rest, tail) := by
  obtain ⟨bound, rfl⟩ : ∃ less, bound = less + 1 := ⟨bound - 1, by omega⟩
  obtain ⟨name, value⟩ := first
  have read := readValue_write blank value (depth + 1) bound
    (writeMembers layout depth rest ++ tail)
  rw [← readValue_append blank.afterColon] at read
  simp only [writeMember, List.append_assoc, List.cons_append, List.nil_append,
    List.length_append, List.length_cons] at enough ⊢
  match rest with
  | [] =>
    rw [writeMembers, List.append_assoc] at read ⊢
    exact readMembers_brace (read (by omega)) (blank.skipBlanks_lineBreak rfl depth tail)
  | second :: rest =>
    simp only [writeMembers, List.append_assoc, List.cons_append, List.nil_append,
      List.length_append, List.length_cons] at enough read ⊢
    rw [readMembers_comma (read (by omega)) (skipBlanks_of_not_isBlank rfl _),
      readMembers_append (blank.lineBreak _),
      readMembers_write blank second rest depth bound tail (by omega)]
    rfl
termination_by bound

end

/-- Reading a whole text undoes writing it. -/
theorem parse?_write (blank : layout.Blank) (value : Json) :
    parse? (String.ofList (write layout 0 value)) = some value := by
  have read := readValue_write blank value 0 (2 * (write layout 0 value).length + 1) [] (by omega)
  rw [List.append_nil] at read
  rw [parse?, String.toList_ofList, read]
  rfl

theorem parse?_indented (value : Json) : parse? value.indented = some value :=
  parse?_write blank_indentedLayout value

theorem parse?_compact (value : Json) : parse? value.compact = some value :=
  parse?_write blank_compactLayout value

end Json

end ConnectorSettings
