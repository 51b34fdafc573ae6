/-
This file proves that reading a duration accepts exactly its grammar, and that a text has one
reading.

Digits end where a point, a blank or a unit begins, as long as none of these counts as a digit; so a
scan finds the parts of a text, if it has any, and there are no others. That holds of every class of
digits. So a scan that lets the digits of any script pass, with all digits but those of ASCII
refused behind it, comes to the same as a scan for ASCII digits.

What the parts denote is worked out in three roundings, of the amount, of the unit and of their
product. Each finds the nearest number, so the parts and the table of units in the grammar say which
texts are refused because they come to too much.
-/

import ConnectorSettings.Duration.Grammar
import ConnectorSettings.Proofs.Integers
import ConnectorSettings.Proofs.Rounding
import ConnectorSettings.Text.Split
import Mathlib.Data.List.Basic
import Mathlib.Data.List.TakeWhile
import Mathlib.Data.Option.Basic

namespace ConnectorSettings

namespace Duration

/-! ### Units -/

/-- Durations are read by the units of their grammar. -/
theorem isUnit_iff {unit : Unit} {symbol : String} {length : ℚ} :
    IsUnit unit symbol length ↔
      symbol = unit.symbol ∧ length = unit.length.1 / unit.length.2 := by
  constructor
  · intro isUnit
    cases isUnit <;> exact ⟨rfl, by norm_num [Unit.length]⟩
  · rintro ⟨rfl, rfl⟩
    cases unit <;> norm_num [Unit.length, Unit.symbol] <;> constructor

namespace IsUnit

variable {unit : Unit} {symbol : String} {length : ℚ}

theorem ofSymbol? (isUnit : IsUnit unit symbol length) :
    Unit.ofSymbol? symbol.toList = some unit := by
  cases isUnit <;> decide

/-- A unit is made of letters: no blank, no point and no digit is one of them. -/
theorem letters (isUnit : IsUnit unit symbol length) : ∀ char ∈ symbol.toList,
    Text.isBlank char = false ∧ char ≠ '.' ∧ Text.isDigit char = false := by
  have all : (symbol.toList.all fun char =>
      !Text.isBlank char && char != '.' && !Text.isDigit char) = true := by
    cases isUnit <;> decide
  simpa [and_assoc] using all

theorem symbol_ne_nil (isUnit : IsUnit unit symbol length) : symbol.toList ≠ [] := by
  cases isUnit <;> decide

end IsUnit

theorem isUnit_of_ofSymbol? {text : List Char} {unit : Unit}
    (found : Unit.ofSymbol? text = some unit) :
    ∃ symbol length, IsUnit unit symbol length ∧ symbol.toList = text := by
  have named := List.find?_some (p := fun unit : Unit => unit.symbol.toList == text) found
  exact ⟨unit.symbol, _, isUnit_iff.mpr ⟨rfl, rfl⟩, beq_iff_eq.mp named⟩

theorem apart_isDigit : Apart Text.isDigit where
  point := by decide
  blank := fun _ blank => Text.isDigit_of_blank blank
  letter := fun isUnit char member => (isUnit.letters char member).2.2

/-! ### The parts of a text -/

/-- Behind the digits of a duration, neither a point nor another digit follows. -/
theorem Apart.behind {isDigit : Char → Bool} (apart : Apart isDigit) {blanks : List Char}
    (blank : ∀ char ∈ blanks, Text.isBlank char = true) {unit : Unit} {symbol : String}
    {length : ℚ} (isUnit : IsUnit unit symbol length) :
    ∀ char ∈ blanks ++ symbol.toList, isDigit char = false ∧ char ≠ '.' := by
  intro char member
  rcases List.mem_append.mp member with inside | letter
  · refine ⟨apart.blank char (blank char inside), ?_⟩
    rintro rfl
    exact absurd (blank _ inside) (by decide)
  · exact ⟨apart.letter isUnit char letter, (isUnit.letters char letter).2.1⟩

theorem trimStart_append_symbol {blanks : List Char}
    (blank : ∀ char ∈ blanks, Text.isBlank char = true) {unit : Unit} {symbol : String}
    {length : ℚ} (isUnit : IsUnit unit symbol length) :
    Text.trimStart (blanks ++ symbol.toList) = symbol.toList := by
  rw [Text.trimStart_append_of_blank blank]
  exact Text.trimStart_of_head? fun char first =>
    (isUnit.letters char (List.mem_of_mem_head? first)).1

theorem splitFraction?_of_head? {isDigit : Char → Bool} {text : List Char}
    (point : ∀ char ∈ text.head?, char ≠ '.') : splitFraction? isDigit text = some ([], text) := by
  unfold splitFraction?
  split
  · exact absurd rfl (point _ rfl)
  · rfl

theorem splitFraction?_point {isDigit : Char → Bool} {fraction rest : List Char}
    (filled : fraction ≠ []) (digits : ∀ char ∈ fraction, isDigit char = true)
    (ends : ∀ char ∈ rest.head?, isDigit char = false) :
    splitFraction? isDigit ('.' :: (fraction ++ rest)) = some (fraction, rest) := by
  obtain ⟨taken, dropped⟩ := Text.takeWhile_dropWhile_append digits ends
  rw [splitFraction?, taken, dropped, if_neg (mt List.isEmpty_iff.mp filled)]

/-- What is found behind the whole digits stands there. -/
theorem splitFraction?_eq_some {isDigit : Char → Bool} {text fraction rest : List Char}
    (found : splitFraction? isDigit text = some (fraction, rest)) :
    (fraction = [] ∧ rest = text) ∨
      (fraction ≠ [] ∧ (∀ char ∈ fraction, isDigit char = true) ∧
        text = '.' :: (fraction ++ rest)) := by
  unfold splitFraction? at found
  split at found
  · next behind =>
    right
    rw [Option.ite_none_left_eq_some, Option.some.injEq, Prod.mk.injEq, List.isEmpty_iff] at found
    obtain ⟨filled, rfl, rfl⟩ := found
    exact ⟨filled, fun char member => List.mem_takeWhile_imp member,
      by rw [List.takeWhile_append_dropWhile]⟩
  · left
    cases found
    exact ⟨rfl, rfl⟩

theorem spells_of_parts? {isDigit : Char → Bool} {text : List Char} {parts : Parts}
    (read : parts? isDigit text = some parts) : Spells isDigit text parts := by
  simp only [parts?, Option.ite_none_left_eq_some, List.isEmpty_iff, Option.bind_eq_bind,
    Option.bind_eq_some_iff, Option.pure_def, Option.some.injEq] at read
  obtain ⟨filled, ⟨fraction, rest⟩, split, unit, found, rfl⟩ := read
  obtain ⟨symbol, length, isUnit, trimmed⟩ := isUnit_of_ofSymbol? found
  have digits : ∀ char ∈ text.takeWhile isDigit, isDigit char = true :=
    fun char member => List.mem_takeWhile_imp member
  have blank : ∀ char ∈ rest.takeWhile Text.isBlank, Text.isBlank char = true :=
    fun char member => List.mem_takeWhile_imp member
  have ending : rest = rest.takeWhile Text.isBlank ++ symbol.toList := by
    rw [trimmed]
    exact List.takeWhile_append_dropWhile.symm
  have whole : text = text.takeWhile isDigit ++ text.dropWhile isDigit :=
    List.takeWhile_append_dropWhile.symm
  rcases splitFraction?_eq_some split with ⟨rfl, rfl⟩ | ⟨fractionFilled, fractionDigits, point⟩
  · have spelled : Spells isDigit _ ⟨_, [], unit⟩ := .whole filled digits blank isUnit
    rwa [← ending, ← whole] at spelled
  · have spelled : Spells isDigit _ ⟨_, fraction, unit⟩ :=
      .fraction filled digits fractionFilled fractionDigits blank isUnit
    rwa [← ending, ← point, ← whole] at spelled

/-- Digits are followed by what is no digit, so the scan stops where the parts of the text do. -/
theorem Spells.parts? {isDigit : Char → Bool} (apart : Apart isDigit) {text : List Char}
    {parts : Parts} (spelled : Spells isDigit text parts) :
    parts? isDigit text = some parts := by
  cases spelled with
  | @whole whole blanks unit symbol length filled digits blank isUnit =>
    have behind := apart.behind blank isUnit
    obtain ⟨taken, dropped⟩ := Text.takeWhile_dropWhile_append digits
      fun char first => (behind char (List.mem_of_mem_head? first)).1
    have noFraction : splitFraction? isDigit (blanks ++ symbol.toList) = some ([], _) :=
      splitFraction?_of_head? fun char first => (behind char (List.mem_of_mem_head? first)).2
    rw [Duration.parts?, taken, dropped, if_neg (mt List.isEmpty_iff.mp filled), noFraction]
    simp only [Option.bind_eq_bind, Option.bind_some, trimStart_append_symbol blank isUnit,
      isUnit.ofSymbol?, Option.pure_def]
  | @fraction whole fraction blanks unit symbol length filled digits fractionFilled fractionDigits
      blank isUnit =>
    have behind := apart.behind blank isUnit
    have point : ∀ char ∈ ('.' :: (fraction ++ (blanks ++ symbol.toList))).head?,
        isDigit char = false := by
      rintro _ ⟨⟩
      exact apart.point
    obtain ⟨taken, dropped⟩ := Text.takeWhile_dropWhile_append digits point
    have withFraction := splitFraction?_point fractionFilled fractionDigits
      fun char first => (behind char (List.mem_of_mem_head? first)).1
    rw [Duration.parts?, taken, dropped, if_neg (mt List.isEmpty_iff.mp filled), withFraction]
    simp only [Option.bind_eq_bind, Option.bind_some, trimStart_append_symbol blank isUnit,
      isUnit.ofSymbol?, Option.pure_def]

theorem parts?_eq_some_iff {isDigit : Char → Bool} (apart : Apart isDigit) {text : List Char}
    {parts : Parts} : parts? isDigit text = some parts ↔ Spells isDigit text parts :=
  ⟨spells_of_parts?, Spells.parts? apart⟩

/-- A text is spelled in one way at most. -/
theorem Spells.unique {isDigit : Char → Bool} (apart : Apart isDigit) {text : List Char}
    {parts others : Parts} (spelled : Spells isDigit text parts)
    (again : Spells isDigit text others) : parts = others :=
  Option.some.inj ((spelled.parts? apart).symm.trans (again.parts? apart))

/-! ### Digits of other scripts -/

/-- The wider class spells the same texts and others, with digits of its own in them. -/
theorem spells_iff_of_wider {narrow wide : Char → Bool}
    (wider : ∀ char, narrow char = true → wide char = true) {text : List Char} {parts : Parts} :
    Spells narrow text parts ↔
      Spells wide text parts ∧ ∀ char ∈ parts.digits, narrow char = true := by
  constructor
  · intro spelled
    cases spelled with
    | whole filled digits blank isUnit =>
      refine ⟨.whole filled (fun char member => wider char (digits char member)) blank isUnit, ?_⟩
      rwa [Parts.digits, List.append_nil]
    | fraction filled digits fractionFilled fractionDigits blank isUnit =>
      exact ⟨.fraction filled (fun char member => wider char (digits char member)) fractionFilled
          (fun char member => wider char (fractionDigits char member)) blank isUnit,
        List.forall_mem_append.mpr ⟨digits, fractionDigits⟩⟩
  · rintro ⟨spelled, narrowed⟩
    cases spelled with
    | whole filled _ blank isUnit =>
      rw [Parts.digits, List.append_nil] at narrowed
      exact .whole filled narrowed blank isUnit
    | fraction filled _ fractionFilled _ blank isUnit =>
      obtain ⟨digits, fractionDigits⟩ := List.forall_mem_append.mp narrowed
      exact .fraction filled digits fractionFilled fractionDigits blank isUnit

/-- A scan for more digits, with those of them refused that the narrow class lacks, is the scan for
the narrow class. -/
theorem parts?_eq_filter {narrow wide : Char → Bool} (apart : Apart wide)
    (wider : ∀ char, narrow char = true → wide char = true) (text : List Char) :
    parts? narrow text = (parts? wide text).filter fun parts => parts.digits.all narrow := by
  have narrowApart : Apart narrow := by
    have refused : ∀ char, wide char = false → narrow char = false := fun char other =>
      Bool.eq_false_iff.mpr fun digit => Bool.eq_false_iff.mp other (wider char digit)
    exact ⟨refused _ apart.point, fun char blank => refused char (apart.blank char blank),
      fun isUnit char letter => refused char (apart.letter isUnit char letter)⟩
  ext parts
  rw [parts?_eq_some_iff narrowApart, Option.filter_eq_some_iff, parts?_eq_some_iff apart,
    List.all_eq_true]
  exact spells_iff_of_wider wider

theorem Spells.digits {isDigit : Char → Bool} {text : List Char} {parts : Parts}
    (spelled : Spells isDigit text parts) : ∀ char ∈ parts.digits, isDigit char = true :=
  ((spells_iff_of_wider fun _ digit => digit).mp spelled).2

/-! ### What has no parts -/

/-- Each character is a digit, the point, a blank or a letter of the unit. -/
theorem Spells.mem {text : List Char} {parts : Parts} (spelled : Spells Text.isDigit text parts) :
    ∀ char ∈ text, Text.isDigit char = true ∨ char = '.' ∨ Text.isBlank char = true ∨
      ∃ symbol length, IsUnit parts.unit symbol length ∧ char ∈ symbol.toList := by
  intro char member
  cases spelled with
  | whole filled digits blank isUnit =>
    simp only [List.mem_append] at member
    rcases member with inside | inside | inside
    · exact .inl (digits char inside)
    · exact .inr (.inr (.inl (blank char inside)))
    · exact .inr (.inr (.inr ⟨_, _, isUnit, inside⟩))
  | fraction filled digits fractionFilled fractionDigits blank isUnit =>
    simp only [List.mem_append, List.mem_cons] at member
    rcases member with inside | rfl | inside | inside | inside
    · exact .inl (digits char inside)
    · exact .inr (.inl rfl)
    · exact .inl (fractionDigits char inside)
    · exact .inr (.inr (.inl (blank char inside)))
    · exact .inr (.inr (.inr ⟨_, _, isUnit, inside⟩))

theorem Spells.head? {isDigit : Char → Bool} {text : List Char} {parts : Parts}
    (spelled : Spells isDigit text parts) : ∃ char ∈ text.head?, isDigit char = true := by
  have begins : ∀ {whole rest : List Char}, whole ≠ [] → (∀ char ∈ whole, isDigit char = true) →
      ∃ char ∈ (whole ++ rest).head?, isDigit char = true := by
    intro whole rest filled digits
    obtain ⟨first, others, rfl⟩ := List.exists_cons_of_ne_nil filled
    exact ⟨first, rfl, digits first List.mem_cons_self⟩
  cases spelled with
  | whole filled digits => exact begins filled digits
  | fraction filled digits => exact begins filled digits

/-- Behind the only point that a text has, a digit follows. -/
theorem Spells.point {text before after : List Char} {parts : Parts}
    (spelled : Spells Text.isDigit text parts) (split : text = before ++ '.' :: after) :
    ∃ char ∈ after.head?, Text.isDigit char = true := by
  have noPoint : ∀ {digits : List Char}, (∀ char ∈ digits, Text.isDigit char = true) →
      '.' ∉ digits := fun digits member => absurd (digits _ member) (by decide)
  cases spelled with
  | @whole whole blanks unit symbol length filled digits blank isUnit =>
    have inside : '.' ∈ whole ++ (blanks ++ symbol.toList) := split ▸ by simp
    rcases List.mem_append.mp inside with early | late
    · exact absurd early (noPoint digits)
    · exact absurd rfl (apart_isDigit.behind blank isUnit _ late).2
  | @fraction whole fraction blanks unit symbol length filled digits fractionFilled fractionDigits
      blank isUnit =>
    have behind : '.' ∉ fraction ++ (blanks ++ symbol.toList) := fun member => by
      rcases List.mem_append.mp member with early | late
      · exact noPoint fractionDigits early
      · exact (apart_isDigit.behind blank isUnit _ late).2 rfl
    obtain ⟨-, -, rfl⟩ := (List.append_cons_inj_of_notMem (noPoint digits) behind).mp split
    obtain ⟨first, others, rfl⟩ := List.exists_cons_of_ne_nil fractionFilled
    exact ⟨first, rfl, fractionDigits first List.mem_cons_self⟩

theorem Spells.getLast? {isDigit : Char → Bool} {text : List Char} {parts : Parts}
    (spelled : Spells isDigit text parts) : ∃ char ∈ text.getLast?, ∃ symbol length,
      IsUnit parts.unit symbol length ∧ char ∈ symbol.toList := by
  have ends : ∀ (front : List Char) {unit : Unit} {symbol : String} {length : ℚ},
      IsUnit unit symbol length → ∃ char ∈ (front ++ symbol.toList).getLast?,
        ∃ symbol length, IsUnit unit symbol length ∧ char ∈ symbol.toList := by
    intro front unit symbol length isUnit
    rw [List.getLast?_append_of_ne_nil _ isUnit.symbol_ne_nil]
    exact ⟨_, List.getLast?_eq_some_getLast isUnit.symbol_ne_nil, symbol, length, isUnit,
      List.getLast_mem _⟩
  cases spelled with
  | whole filled digits blank isUnit =>
    rw [← List.append_assoc]
    exact ends _ isUnit
  | fraction filled digits fractionFilled fractionDigits blank isUnit =>
    rw [← List.append_assoc, ← List.cons_append, ← List.append_assoc]
    exact ends _ isUnit

theorem Flawed.not_spells {text : List Char} {parts : Parts} (flawed : Flawed text) :
    ¬ Spells Text.isDigit text parts := by
  intro spelled
  cases flawed with
  | foreign char member digit point blank letter =>
    rcases spelled.mem char member with found | found | found | found
    · exact Bool.eq_false_iff.mp digit found
    · exact point found
    · exact Bool.eq_false_iff.mp blank found
    · obtain ⟨symbol, length, isUnit, inside⟩ := found
      exact letter isUnit inside
  | withoutWhole missing =>
    obtain ⟨char, first, digit⟩ := spelled.head?
    exact Bool.eq_false_iff.mp (missing char first) digit
  | withoutFraction before after split missing =>
    obtain ⟨char, first, digit⟩ := spelled.point split
    exact Bool.eq_false_iff.mp (missing char first) digit
  | blankEnd char last blank =>
    obtain ⟨letter, final, symbol, length, isUnit, member⟩ := spelled.getLast?
    obtain rfl := Option.some.inj (last.symm.trans final)
    exact Bool.eq_false_iff.mp (isUnit.letters _ member).1 blank

example (parts : Parts) : ¬ Spells Text.isDigit "1e3s".toList parts :=
  Flawed.not_spells (.foreign 'e' (by decide) (by decide) (by decide) (by decide) fun isUnit => by
    cases isUnit <;> decide)

/-! ### Reading -/

theorem Unit.length_positive (unit : Unit) : 0 < unit.length.2 := by
  cases unit <;> decide

theorem Parts.denoted?_eq_some_iff {parts : Parts}
    (decimal : ∀ char ∈ parts.digits, Text.isDigit char = true) {duration : Duration} :
    parts.denoted? = some duration ↔
      ∃ product, parts.IsProduct product ∧ ofSeconds? product = some duration := by
  have amounts : ∀ amount, Binary64.ofRatio? (Text.decimalNumber (parts.whole ++ parts.fraction))
      (Nat.pow 10 parts.fraction.length) = some amount ↔ Binary64.IsNearest
        (IntegerKind.placeValue parts.digits / 10 ^ parts.fraction.length) amount := by
    intro amount
    have positive : 0 < Nat.pow 10 parts.fraction.length := Nat.pow_pos (by decide)
    have counted : Text.decimalNumber (parts.whole ++ parts.fraction) =
        IntegerKind.placeValue parts.digits := IntegerKind.decimalNumber_eq_placeValue decimal
    have power : ((Nat.pow 10 parts.fraction.length : Nat) : ℚ) = 10 ^ parts.fraction.length :=
      Nat.cast_pow 10 parts.fraction.length
    rw [Binary64.ofRatio?_eq_some_iff positive, counted, power]
  simp only [Parts.denoted?, Option.bind_eq_bind, Option.bind_eq_some_iff, amounts,
    Binary64.ofRatio?_eq_some_iff parts.unit.length_positive, Binary64.mul?_eq_some_iff]
  constructor
  · rintro ⟨amount, isAmount, unit, isLength, product, isProduct, taken⟩
    exact ⟨product, ⟨_, _, amount, unit, isUnit_iff.mpr ⟨rfl, rfl⟩, isAmount, isLength, isProduct⟩,
      taken⟩
  · rintro ⟨product, ⟨symbol, length, amount, unit, isUnit, isAmount, isLength, isProduct⟩, taken⟩
    obtain ⟨-, rfl⟩ := isUnit_iff.mp isUnit
    exact ⟨amount, isAmount, unit, isLength, product, isProduct, taken⟩

theorem exists_ofSeconds?_iff {product : Binary64} :
    (∃ duration, ofSeconds? product = some duration) ↔ Fits product := by
  have compared : product.ratio.1 < Nat.pow 2 64 * product.ratio.2 ↔ Fits product := by
    have positive : (0 : ℚ) < product.ratio.2 := Nat.cast_pos.mpr (Binary64.scaled_positive _ _)
    have ratio : (product.ratio.1 : ℚ) / product.ratio.2 = product.value :=
      Binary64.scaled_ratio product.significand product.exponent
    rw [Fits, ← ratio, div_lt_iff₀ positive]
    exact_mod_cast Iff.rfl
  rw [← compared]
  constructor
  · rintro ⟨duration, taken⟩
    simp only [ofSeconds?, Option.ite_none_right_eq_some] at taken
    exact taken.1
  · exact fun fits => ⟨_, if_pos fits⟩

end Duration

namespace DurationText

open Duration

theorem read?_eq_some_iff {text : String} {written : DurationText} :
    read? text = some written ↔ written.text = text ∧ ∃ parts product,
      Spells Text.isDigit text.toList parts ∧ parts.IsProduct product ∧
        ofSeconds? product = some written.duration := by
  simp only [read?, Option.bind_eq_bind, Option.bind_eq_some_iff, Option.pure_def,
    Option.some.injEq, parts?_eq_some_iff apart_isDigit]
  constructor
  · rintro ⟨parts, spelled, duration, denoted, rfl⟩
    obtain ⟨product, multiplied, taken⟩ := (Parts.denoted?_eq_some_iff spelled.digits).mp denoted
    exact ⟨rfl, parts, product, spelled, multiplied, taken⟩
  · rintro ⟨rfl, parts, product, spelled, multiplied, taken⟩
    exact ⟨parts, spelled, written.duration,
      (Parts.denoted?_eq_some_iff spelled.digits).mpr ⟨product, multiplied, taken⟩, rfl⟩

theorem exists_read?_iff {text : String} :
    (∃ written, read? text = some written) ↔ ∃ parts product, Reads text parts product := by
  constructor
  · rintro ⟨written, read⟩
    obtain ⟨-, parts, product, spelled, multiplied, taken⟩ := read?_eq_some_iff.mp read
    exact ⟨parts, product, spelled, multiplied, exists_ofSeconds?_iff.mp ⟨_, taken⟩⟩
  · rintro ⟨parts, product, spelled, multiplied, fits⟩
    obtain ⟨duration, taken⟩ := exists_ofSeconds?_iff.mpr fits
    exact ⟨⟨text, duration⟩,
      read?_eq_some_iff.mpr ⟨rfl, parts, product, spelled, multiplied, taken⟩⟩

theorem readWide?_eq_read? {wide : Char → Bool} (apart : Apart wide)
    (wider : ∀ char, Text.isDigit char = true → wide char = true) (text : String) :
    readWide? wide text = read? text := by
  rw [read?, parts?_eq_filter apart wider, readWide?]
  cases scanned : parts? wide text.toList with
  | none => rfl
  | some parts =>
    rw [Option.filter_some]
    by_cases ascii : parts.digits.all Text.isDigit = true
    · simp only [Option.bind_eq_bind, Option.bind_some, if_pos ascii]
    · simp only [Option.bind_eq_bind, Option.bind_some, if_neg ascii, Option.bind_none]

/-- A text is read as a duration exactly if it is an amount and a unit, in one way, that come to no
more than fits; the duration keeps the text and is what they come to. Everything else is refused
with the key and the text. A scan for the digits of every script reads the same, with those refused
behind it that are not of ASCII. -/
theorem reads_exactly_grammar (key raw : String) :
    ((∃ written, readValue DurationText key raw = .ok written) ↔
        ∃ parts product, Reads raw parts product) ∧
      (∀ written, readValue DurationText key raw = .ok written → written.text = raw ∧
        ∃ parts product, Reads raw parts product ∧ ofSeconds? product = some written.duration ∧
          ∀ others, Spells Text.isDigit raw.toList others → others = parts) ∧
      (∀ error, readValue DurationText key raw = .error error →
        error = .malformed key raw "duration (e.g. 200s, 1500ms, 2m)") ∧
      (Flawed raw.toList → readValue DurationText key raw =
        .error (.malformed key raw "duration (e.g. 200s, 1500ms, 2m)")) ∧
      ∀ wide, Apart wide → (∀ char, Text.isDigit char = true → wide char = true) →
        readWide? wide raw = read? raw := by
  have accepted : ∀ {written}, readValue DurationText key raw = .ok written ↔
      read? raw = some written := readValue_eq_ok_iff
  refine ⟨?_, fun written accepts => ?_, fun error refused => ?_, fun flawed => ?_,
    fun wide apart wider => readWide?_eq_read? apart wider raw⟩
  · simp only [accepted, exists_read?_iff]
  · obtain ⟨kept, parts, product, spelled, multiplied, taken⟩ :=
      read?_eq_some_iff.mp (accepted.mp accepts)
    exact ⟨kept, parts, product,
      ⟨spelled, multiplied, exists_ofSeconds?_iff.mp ⟨_, taken⟩⟩, taken,
      fun others again => again.unique apart_isDigit spelled⟩
  · exact (readValue_eq_error_iff.mp refused).2
  · have unread : read? raw = none := by
      rw [Option.eq_none_iff_forall_ne_some]
      intro written read
      obtain ⟨-, parts, -, spelled, -⟩ := read?_eq_some_iff.mp read
      exact flawed.not_spells spelled
    exact readValue_eq_error_iff.mpr ⟨unread, rfl⟩

/-- The digits of ASCII and those of the Arabic script. -/
def isArabicDigit (char : Char) : Bool :=
  Text.isDigit char || (0x660 ≤ char.toNat && char.toNat ≤ 0x669)

theorem apart_isArabicDigit : Apart isArabicDigit where
  point := by decide
  blank := by
    intro char blank
    rw [isArabicDigit, apart_isDigit.blank char blank, Bool.false_or, Bool.eq_false_iff, ne_eq,
      Bool.and_eq_true, decide_eq_true_eq, decide_eq_true_eq]
    simp only [Text.isBlank, Bool.or_eq_true, Bool.and_eq_true, decide_eq_true_eq, beq_iff_eq]
      at blank
    omega
  letter := by
    intro unit symbol length isUnit
    have all : (symbol.toList.all fun char => !isArabicDigit char) = true := by
      cases isUnit <;> decide
    simpa using all

/-- An Arabic three passes the scan and is refused behind it. Three hundred trillion seconds are a
duration, and as many days are more than fits into one. -/
theorem reads_exactly_grammar_arabic :
    (∃ parts product, Reads "1.5 ms" parts product) ∧
      (∃ parts product, Reads "300000000000000s" parts product) ∧
      (¬ ∃ parts product, Reads "300000000000000d" parts product) ∧
      (parts? isArabicDigit "\u0663s".toList).isSome = true ∧
      readWide? isArabicDigit "\u0663s" = none ∧
      readValue DurationText "fs.s3a.connection.timeout" "\u0663s" =
        .error (.malformed "fs.s3a.connection.timeout" "\u0663s"
          "duration (e.g. 200s, 1500ms, 2m)") := by
  have accepted : ∀ raw, (∃ written, read? raw = some written) →
      ∃ parts product, Reads raw parts product := by
    rintro raw ⟨written, read⟩
    exact (reads_exactly_grammar "fs.s3a.connection.timeout" raw).1.mp
      ⟨written, readValue_eq_ok_iff.mpr read⟩
  refine ⟨accepted _ ⟨⟨"1.5 ms", ⟨0, 1500000⟩⟩, by decide +kernel⟩,
    accepted _ ⟨⟨"300000000000000s", ⟨300000000000000, 0⟩⟩, by decide +kernel⟩, ?_,
    by decide +kernel, ?_, ?_⟩
  · intro reads
    obtain ⟨written, accepts⟩ :=
      (reads_exactly_grammar "fs.s3a.connection.timeout" "300000000000000d").1.mpr reads
    have refused : read? "300000000000000d" = none := by decide +kernel
    exact Option.some_ne_none _ ((readValue_eq_ok_iff.mp accepts).symm.trans refused)
  · have reading := (reads_exactly_grammar "fs.s3a.connection.timeout" "\u0663s").2.2.2.2
    rw [reading isArabicDigit apart_isArabicDigit fun char digit => by simp [isArabicDigit, digit]]
    decide +kernel
  · exact (reads_exactly_grammar "fs.s3a.connection.timeout" "\u0663s").2.2.2.1
      (.withoutWhole (by rintro _ ⟨⟩; decide))

end DurationText

end ConnectorSettings
