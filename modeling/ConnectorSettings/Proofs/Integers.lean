/-
This file proves what is read as an integer, and that every kind reads what is written.

A text is read as a number of a kind exactly if it is a numeral that denotes it and the kind has it.
The digits are read into a number of any size and compared with the range at the end. Comparing
after each digit gives the same: a number only grows away from zero, so once it has left the range
it does not come back.
-/

import ConnectorSettings.Number.Numeral
import ConnectorSettings.Readable
import Mathlib.Tactic.Positivity
import Mathlib.Tactic.Ring

namespace ConnectorSettings

namespace IntegerKind

variable {kind : IntegerKind}

/-! ### Ranges -/

theorem contains_iff_inRange {number : Int} :
    kind.contains number = true ↔ kind.InRange number := by
  rw [contains, Bool.and_eq_true, decide_eq_true_eq, decide_eq_true_eq]
  cases kind <;>
    simp only [least, greatest, InRange, isSigned, bits, Bool.false_eq_true, if_true, if_false] <;>
    omega

/-- With a number, a kind has all those between it and zero. -/
theorem contains_of_le {negative : Bool} {size larger : Nat} (le : size ≤ larger)
    (within : kind.contains (withSign negative larger) = true) :
    kind.contains (withSign negative size) = true := by
  cases kind <;> cases negative <;> simp [contains, least, greatest, withSign] at within ⊢ <;> omega

theorem contains_zero : kind.contains 0 = true := by
  cases kind <;> decide

/-! ### Digits and their places -/

theorem placeValue_cons (char : Char) (digits : List Char) :
    placeValue (char :: digits) =
      (char.toNat - '0'.toNat) * 10 ^ digits.length + placeValue digits := by
  rw [placeValue, List.map_cons, Nat.ofDigits_reverse_cons, List.length_map, Nat.mul_comm,
    Nat.add_comm]
  rfl

/-- Digits behind a number make it larger by a power of ten for each of them. -/
theorem foldl_eq_placeValue {digits : List Char}
    (decimal : ∀ char ∈ digits, Text.isDigit char = true) (total : Nat) :
    digits.foldl (fun total char => total * 10 + (Text.decimalValue? char).getD 0) total =
      total * 10 ^ digits.length + placeValue digits := by
  induction digits generalizing total with
  | nil => simp [placeValue]
  | cons char rest inductionHypothesis =>
    obtain ⟨digit, others⟩ := List.forall_mem_cons.mp decimal
    have value := Text.decimalValue?_eq_some_iff.mpr ⟨digit, rfl⟩
    rw [List.foldl_cons, inductionHypothesis others, value, Option.getD_some, placeValue_cons,
      List.length_cons]
    ring

theorem decimalNumber_eq_placeValue {digits : List Char}
    (decimal : ∀ char ∈ digits, Text.isDigit char = true) :
    Text.decimalNumber digits = placeValue digits := by
  rw [Text.decimalNumber, foldl_eq_placeValue decimal, Nat.zero_mul, Nat.zero_add]

/-! ### Numerals -/

theorem magnitude?_eq_some_iff {digits : List Char} {size : Nat} :
    magnitude? digits = some size ↔
      digits ≠ [] ∧ (∀ char ∈ digits, Text.isDigit char = true) ∧ size = placeValue digits := by
  simp only [magnitude?, Option.ite_none_right_eq_some, Option.some.injEq, Bool.and_eq_true,
    Bool.not_eq_true', List.isEmpty_eq_false_iff, List.all_eq_true, and_assoc]
  refine and_congr_right fun _ => and_congr_right fun decimal => ?_
  rw [decimalNumber_eq_placeValue decimal, eq_comm]

/-- Digits begin with no sign. -/
theorem not_isDigit_sign {sign : Char} (either : sign = '+' ∨ sign = '-') {digits : List Char} :
    ¬ ∀ char ∈ sign :: digits, Text.isDigit char = true := by
  intro decimal
  have digit := decimal sign List.mem_cons_self
  rcases either with rfl | rfl <;> exact absurd digit (by decide)

theorem denoted?_eq_some_iff {text : List Char} {number : Int} :
    kind.denoted? text = some number ↔ Numeral kind text number := by
  constructor
  · intro denotes
    unfold denoted? at denotes
    split at denotes
    · obtain ⟨size, sized, rfl⟩ := Option.map_eq_some_iff.mp denotes
      obtain ⟨filled, decimal, rfl⟩ := magnitude?_eq_some_iff.mp sized
      exact .plus filled decimal
    · obtain ⟨signed, denotes⟩ := Option.ite_none_right_eq_some.mp denotes
      obtain ⟨size, sized, rfl⟩ := Option.map_eq_some_iff.mp denotes
      obtain ⟨filled, decimal, rfl⟩ := magnitude?_eq_some_iff.mp sized
      exact .minus signed filled decimal
    · obtain ⟨size, sized, rfl⟩ := Option.map_eq_some_iff.mp denotes
      obtain ⟨filled, decimal, rfl⟩ := magnitude?_eq_some_iff.mp sized
      exact .plain filled decimal
  · intro numeral
    cases numeral with
    | plus filled decimal =>
      rw [denoted?, magnitude?_eq_some_iff.mpr ⟨filled, decimal, rfl⟩]
      rfl
    | minus signed filled decimal =>
      rw [denoted?, if_pos signed, magnitude?_eq_some_iff.mpr ⟨filled, decimal, rfl⟩]
      rfl
    | plain filled decimal =>
      unfold denoted?
      split
      · exact absurd decimal (not_isDigit_sign (.inl rfl))
      · exact absurd decimal (not_isDigit_sign (.inr rfl))
      · rw [magnitude?_eq_some_iff.mpr ⟨filled, decimal, rfl⟩]
        rfl

/-! ### Reading in steps -/

/-- The step from a number within the range takes one more digit exactly if it does not leave it. -/
theorem appendDigit?_withSign (negative : Bool) (size digit : Nat) :
    kind.appendDigit? negative (withSign negative size) digit =
      if kind.contains (withSign negative (size * 10 + digit)) then
        some (withSign negative (size * 10 + digit))
      else none := by
  have tenfold : withSign negative size * 10 = withSign negative (size * 10) := by
    cases negative <;> simp [withSign]
  have next : (if negative then withSign negative (size * 10) - digit
      else withSign negative (size * 10) + digit) = withSign negative (size * 10 + digit) := by
    cases negative
    · simp [withSign]
    · simp [withSign]
      omega
  rw [appendDigit?, tenfold, next]
  by_cases within : kind.contains (withSign negative (size * 10 + digit)) = true
  · rw [contains_of_le (Nat.le_add_right _ _) within, within]
    rfl
  · rw [Bool.eq_false_iff.mpr within, Bool.and_false]

/-- A run of steps gives the number that all digits make of the one it starts with, if the kind has
it. Where the run breaks off, the number would only grow further out of the range. -/
theorem appendDigits?_eq_some_iff {negative : Bool} {size : Nat} {digits : List Char} {number : Int}
    (within : kind.contains (withSign negative size) = true) :
    kind.appendDigits? negative (withSign negative size) digits = some number ↔
      (∀ char ∈ digits, Text.isDigit char = true) ∧
        number = withSign negative (size * 10 ^ digits.length + placeValue digits) ∧
        kind.contains number = true := by
  induction digits generalizing size with
  | nil =>
    simp only [appendDigits?, Option.some.injEq, List.not_mem_nil, false_implies, implies_true,
      true_and, List.length_nil, placeValue, List.map_nil, List.reverse_nil, Nat.ofDigits_nil,
      Nat.pow_zero, Nat.mul_one, Nat.add_zero, eq_comm (b := number)]
    exact ⟨fun same => ⟨same, same ▸ within⟩, And.left⟩
  | cons char rest inductionHypothesis =>
    rw [appendDigits?, Option.bind_eq_bind, Option.bind_eq_some_iff, List.forall_mem_cons,
      List.length_cons]
    have places (digit : Nat) (same : digit = char.toNat - '0'.toNat) :
        size * 10 ^ (rest.length + 1) + placeValue (char :: rest) =
          (size * 10 + digit) * 10 ^ rest.length + placeValue rest := by
      rw [placeValue_cons, same]
      ring
    constructor
    · rintro ⟨digit, value, further⟩
      obtain ⟨isDigit, same⟩ := Text.decimalValue?_eq_some_iff.mp value
      rw [appendDigit?_withSign] at further
      obtain ⟨next, stepped, further⟩ := Option.bind_eq_some_iff.mp further
      obtain ⟨stays, taken⟩ := Option.ite_none_right_eq_some.mp stepped
      obtain rfl := Option.some.inj taken
      obtain ⟨others, whole, ends⟩ := (inductionHypothesis stays).mp further
      exact ⟨⟨isDigit, others⟩, by rw [places digit same, whole], ends⟩
    · rintro ⟨⟨isDigit, others⟩, whole, ends⟩
      rw [places _ rfl] at whole
      have stays :
          kind.contains (withSign negative (size * 10 + (char.toNat - '0'.toNat))) = true :=
        contains_of_le (le_trans (Nat.le_mul_of_pos_right _ (by positivity))
          (Nat.le_add_right _ _)) (whole ▸ ends)
      refine ⟨_, Text.decimalValue?_eq_some_iff.mpr ⟨isDigit, rfl⟩, ?_⟩
      rw [appendDigit?_withSign, if_pos stays]
      exact (inductionHypothesis stays).mpr ⟨others, whole, ends⟩

theorem appendDigits?_zero_eq_some_iff {negative : Bool} {digits : List Char} {number : Int} :
    kind.appendDigits? negative 0 digits = some number ↔
      (∀ char ∈ digits, Text.isDigit char = true) ∧
        number = withSign negative (placeValue digits) ∧ kind.contains number = true := by
  have zero : withSign negative 0 = 0 := by cases negative <;> rfl
  have within : kind.contains (withSign negative 0) = true := zero ▸ contains_zero
  rw [← zero, appendDigits?_eq_some_iff within, Nat.zero_mul, Nat.zero_add]

theorem stepwise?_eq_some_iff {text : List Char} {number : Int} :
    kind.stepwise? text = some number ↔
      Numeral kind text number ∧ kind.contains number = true := by
  constructor
  · intro read
    unfold stepwise? at read
    split at read
    · cases read
    · cases read
    · cases read
    · next lone =>
      obtain ⟨decimal, rfl, within⟩ := appendDigits?_zero_eq_some_iff.mp read
      exact ⟨.plus (fun none => lone none) decimal, within⟩
    · next lone =>
      obtain ⟨signed, read⟩ := Option.ite_none_right_eq_some.mp read
      obtain ⟨decimal, rfl, within⟩ := appendDigits?_zero_eq_some_iff.mp read
      exact ⟨.minus signed (fun none => lone none) decimal, within⟩
    · next filled _ _ _ _ =>
      obtain ⟨decimal, rfl, within⟩ := appendDigits?_zero_eq_some_iff.mp read
      exact ⟨.plain filled decimal, within⟩
  · rintro ⟨numeral, within⟩
    cases numeral with
    | plus filled decimal =>
      obtain ⟨first, others, rfl⟩ := List.exists_cons_of_ne_nil filled
      exact appendDigits?_zero_eq_some_iff.mpr ⟨decimal, rfl, within⟩
    | minus signed filled decimal =>
      obtain ⟨first, others, rfl⟩ := List.exists_cons_of_ne_nil filled
      exact (if_pos signed).trans (appendDigits?_zero_eq_some_iff.mpr ⟨decimal, rfl, within⟩)
    | plain filled decimal =>
      unfold stepwise?
      split
      · exact absurd rfl filled
      · exact absurd decimal (not_isDigit_sign (.inl rfl))
      · exact absurd decimal (not_isDigit_sign (.inr rfl))
      · exact absurd decimal (not_isDigit_sign (.inl rfl))
      · exact absurd decimal (not_isDigit_sign (.inr rfl))
      · exact appendDigits?_zero_eq_some_iff.mpr ⟨decimal, rfl, within⟩

/-! ### Numerals that are written -/

/-- A text denotes one number at most. -/
theorem Numeral.unique {text : List Char} {number other : Int}
    (numeral : Numeral kind text number) (again : Numeral kind text other) : number = other :=
  Option.some.inj ((denoted?_eq_some_iff.mpr numeral).symm.trans (denoted?_eq_some_iff.mpr again))

theorem Numeral.isSigned {digits : List Char} {number : Int}
    (numeral : Numeral kind ('-' :: digits) number) : kind.isSigned = true := by
  cases numeral with
  | plain filled decimal => exact absurd decimal (not_isDigit_sign (.inr rfl))
  | minus signed filled decimal => exact signed

theorem placeValue_decimal (number : Nat) : placeValue (Text.decimal number) = number := by
  rw [← decimalNumber_eq_placeValue fun char member => Text.isDigit_of_mem_decimal member,
    Text.decimalNumber_decimal]

theorem withSign_natAbs (number : Int) :
    withSign (decide (number < 0)) number.natAbs = number := by
  rw [withSign]
  split
  · next negative =>
    have below : number < 0 := of_decide_eq_true negative
    omega
  · next other =>
    have above : ¬ number < 0 := of_decide_eq_false (Bool.eq_false_iff.mpr other)
    omega

/-- A negative number is written as a numeral of the signed kinds, any other one as a numeral of
all. -/
theorem numeral_integerText {number : Int} (allowed : kind.isSigned = true ∨ 0 ≤ number) :
    Numeral kind (Text.integerText number).toList number := by
  have filled := Text.decimal_ne_nil number.natAbs
  have decimal : ∀ char ∈ Text.decimal number.natAbs, Text.isDigit char = true :=
    fun char member => Text.isDigit_of_mem_decimal member
  have value := withSign_natAbs number
  rw [Text.toList_integerText]
  split
  · next negative =>
    have signed : kind.isSigned = true := allowed.resolve_right (Int.not_le.mpr negative)
    have numeral : Numeral kind _ _ := .minus signed filled decimal
    rw [decide_eq_true negative] at value
    rwa [placeValue_decimal, value] at numeral
  · next other =>
    have numeral : Numeral kind _ _ := .plain filled decimal
    rw [decide_eq_false other] at value
    rwa [placeValue_decimal, value] at numeral

/-- No kind reads another number than the one that is written. -/
theorem eq_of_numeral_integerText {number other : Int}
    (numeral : Numeral kind (Text.integerText number).toList other) : other = number := by
  by_cases negative : number < 0
  · have minus := numeral
    rw [Text.toList_integerText, if_pos negative] at minus
    exact numeral.unique (numeral_integerText (.inl minus.isSigned))
  · exact numeral.unique (numeral_integerText (.inr (Int.not_lt.mp negative)))

theorem InRange.allowed {number : Int} (inRange : kind.InRange number) :
    kind.isSigned = true ∨ 0 ≤ number := by
  unfold InRange at inRange
  split at inRange
  · next signed => exact .inl signed
  · exact .inr inRange.1

theorem trimmed_integerText (number : Int) :
    Text.trimmed (Text.integerText number) = Text.integerText number := by
  have filled : ∀ char ∈ (Text.integerText number).toList, Text.isBlank char = false := by
    have digits : ∀ char ∈ Text.decimal number.natAbs, Text.isBlank char = false := by
      intro char member
      by_contra blank
      rw [Bool.not_eq_false] at blank
      exact absurd (Text.isDigit_of_mem_decimal member)
        (Bool.eq_false_iff.mp (Text.isDigit_of_blank blank))
    rw [Text.toList_integerText]
    split
    · exact List.forall_mem_cons.mpr ⟨by decide, digits⟩
    · exact digits
  rw [Text.trimmed, Text.trim_of_filled filled, String.ofList_toList]

end IntegerKind

namespace BoundedInt

open IntegerKind

variable {kind : IntegerKind}

/-! ### Reading a text -/

theorem ofInt?_eq_some_iff {number : Int} {bounded : BoundedInt kind} :
    ofInt? kind number = some bounded ↔ bounded.value = number := by
  unfold ofInt?
  constructor
  · intro held
    split at held
    · exact Option.some.inj held ▸ rfl
    · cases held
  · rintro rfl
    exact dif_pos bounded.inRange

theorem read?_eq_some_iff {text : String} {bounded : BoundedInt kind} :
    read? kind text = some bounded ↔ Numeral kind text.toList bounded.value := by
  simp only [read?, Option.bind_eq_some_iff, denoted?_eq_some_iff, ofInt?_eq_some_iff,
    exists_eq_right']

theorem exists_read?_iff {text : String} : (∃ bounded, read? kind text = some bounded) ↔
    ∃ number, Numeral kind text.toList number ∧ kind.InRange number := by
  simp only [read?_eq_some_iff, ← contains_iff_inRange]
  constructor
  · exact fun ⟨bounded, numeral⟩ => ⟨bounded.value, numeral, bounded.inRange⟩
  · exact fun ⟨number, numeral, inRange⟩ => ⟨⟨number, inRange⟩, numeral⟩

theorem stepwise?_eq_read? (text : String) :
    kind.stepwise? text.toList = (read? kind text).map BoundedInt.value := by
  ext number
  rw [stepwise?_eq_some_iff, Option.map_eq_some_iff]
  simp only [read?_eq_some_iff]
  constructor
  · exact fun ⟨numeral, inRange⟩ => ⟨⟨number, inRange⟩, numeral, rfl⟩
  · rintro ⟨bounded, numeral, rfl⟩
    exact ⟨numeral, bounded.inRange⟩

/-- The number under a key is read back if the kind has it, and refused with the key and its text if
the kind does not. -/
structure ReadsBack (kind : IntegerKind) (map : SettingsMap) (key : String) (number : Int) :
    Prop where
  inside : kind.InRange number → ∃ bounded : BoundedInt kind, bounded.value = number ∧
    map.getAs (BoundedInt kind) key = .ok (some bounded)
  outside : ¬ kind.InRange number → map.getAs (BoundedInt kind) key =
    .error (.malformed key (Text.integerText number) "integer")

theorem readsBack_of_get? {map : SettingsMap} {key : String} {number : Int}
    (found : map.get? key = some (Text.integerText number)) : ReadsBack kind map key number := by
  have read : map.getAs (BoundedInt kind) key =
      (readValue (BoundedInt kind) key (Text.integerText number)).map some := by
    rw [SettingsMap.getAs, found]
    show Except.map some (readValue _ _ (Text.trimmed _)) = _
    rw [trimmed_integerText]
  constructor
  · intro inRange
    have accepted : read? kind (Text.integerText number) =
        some ⟨number, contains_iff_inRange.mpr inRange⟩ :=
      read?_eq_some_iff.mpr (numeral_integerText inRange.allowed)
    refine ⟨⟨number, contains_iff_inRange.mpr inRange⟩, rfl, ?_⟩
    rw [read, readValue_eq_ok_iff.mpr accepted]
    rfl
  · intro outside
    have refused : (read? kind (Text.integerText number) : Option (BoundedInt kind)) = none := by
      rw [Option.eq_none_iff_forall_ne_some]
      intro bounded accepted
      have same := eq_of_numeral_integerText (read?_eq_some_iff.mp accepted)
      exact outside (same ▸ contains_iff_inRange.mp bounded.inRange)
    rw [read, readValue_eq_error_iff.mpr ⟨refused, rfl⟩]
    rfl

end BoundedInt

end ConnectorSettings
