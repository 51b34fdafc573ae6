/-
This file reads and writes whole numbers as text, in base ten and base sixteen.

Only the ASCII digits count. Scripts that write numbers with other digits exist, but none of the
formats this library reads gives them a meaning.

Writing is by long division and reading by Horner's rule; `decimalNumber_decimal` says that the
second undoes the first.
-/

import ConnectorSettings.Text.Blank

namespace ConnectorSettings

namespace Text

/-! ### Single digits -/

def decimalValue? (char : Char) : Option Nat :=
  if '0' ≤ char ∧ char ≤ '9' then some (char.toNat - '0'.toNat) else none

def isDigit (char : Char) : Bool :=
  (decimalValue? char).isSome

theorem isDigit_iff {char : Char} :
    isDigit char = true ↔ 48 ≤ char.toNat ∧ char.toNat ≤ 57 := by
  unfold isDigit decimalValue?
  split
  · next range => exact ⟨fun _ => range, fun _ => rfl⟩
  · next range => exact ⟨nofun, fun within => absurd within range⟩

theorem decimalValue?_eq_some_iff {char : Char} {digit : Nat} :
    decimalValue? char = some digit ↔
      isDigit char = true ∧ digit = char.toNat - '0'.toNat := by
  unfold isDigit
  cases value : decimalValue? char with
  | none => exact ⟨nofun, nofun⟩
  | some found =>
    unfold decimalValue? at value
    split at value
    · rw [← Option.some.inj value]
      simp [eq_comm]
    · cases value

theorem isDigit_of_blank {char : Char} (blank : isBlank char = true) : isDigit char = false := by
  rw [Bool.eq_false_iff, ne_eq, isDigit_iff]
  simp only [isBlank, Bool.or_eq_true, Bool.and_eq_true, decide_eq_true_eq, beq_iff_eq] at blank
  omega

/-- The value of a base-sixteen digit, in either case. -/
def hexValue? (char : Char) : Option Nat :=
  if '0' ≤ char ∧ char ≤ '9' then some (char.toNat - '0'.toNat)
  else if 'a' ≤ char ∧ char ≤ 'f' then some (char.toNat - 'a'.toNat + 10)
  else if 'A' ≤ char ∧ char ≤ 'F' then some (char.toNat - 'A'.toNat + 10)
  else none

/-- The digit of a number below sixteen, in lower case. -/
def digitOf (value : Nat) : Char :=
  if value < 10 then Char.ofNat ('0'.toNat + value) else Char.ofNat ('a'.toNat + (value - 10))

/-! ### Reading -/

/-- Reads digits in `base`, most significant first; `none` if there are none or a character is
no digit of that base. -/
def readDigits? (base : Nat) (digits : List Char) : Option Nat :=
  if digits.isEmpty then none
  else digits.foldlM (fun total char =>
    match hexValue? char with
    | some value => if value < base then some (total * base + value) else none
    | none => none) 0

/-- The number that ASCII digits denote; a character that is no digit counts as a zero, so that
the function is total. The readers call it on digits alone. -/
def decimalNumber (digits : List Char) : Nat :=
  digits.foldl (fun total char => total * 10 + (decimalValue? char).getD 0) 0

/-! ### Writing -/

/-- A number in base ten, without leading zeros. -/
def decimal (number : Nat) : List Char :=
  if number < 10 then [digitOf number] else decimal (number / 10) ++ [digitOf (number % 10)]

/-- A number in base sixteen, in lower case and without leading zeros. -/
def hexadecimal (number : Nat) : List Char :=
  if number < 16 then [digitOf number]
  else hexadecimal (number / 16) ++ [digitOf (number % 16)]

/-- Zeros in front of a text that is shorter than `width`. -/
def zeroPadded (width : Nat) (text : List Char) : List Char :=
  List.replicate (width - text.length) '0' ++ text

def decimalText (number : Nat) : String :=
  String.ofList (decimal number)

/-- An integer in base ten; only a negative one carries a sign. -/
def integerText (number : Int) : String :=
  if number < 0 then "-" ++ decimalText number.natAbs else decimalText number.natAbs

/-! ### Reading undoes writing -/

theorem decimalValue?_digitOf {value : Nat} (small : value < 10) :
    decimalValue? (digitOf value) = some value := by
  have cases : ∀ digit : Fin 10, decimalValue? (digitOf digit.val) = some digit.val := by decide
  exact cases ⟨value, small⟩

theorem isDigit_digitOf {value : Nat} (small : value < 10) : isDigit (digitOf value) = true := by
  rw [isDigit, decimalValue?_digitOf small]
  rfl

theorem decimalNumber_append_singleton (digits : List Char) (last : Char) :
    decimalNumber (digits ++ [last]) =
      decimalNumber digits * 10 + (decimalValue? last).getD 0 := by
  simp [decimalNumber, List.foldl_append]

theorem decimalNumber_decimal (number : Nat) : decimalNumber (decimal number) = number := by
  induction number using decimal.induct with
  | case1 number small =>
    rw [decimal, if_pos small]
    simp [decimalNumber, decimalValue?_digitOf small]
  | case2 number large inductionHypothesis =>
    rw [decimal, if_neg large, decimalNumber_append_singleton, inductionHypothesis,
      decimalValue?_digitOf (Nat.mod_lt number (by decide)), Option.getD_some]
    omega

theorem isDigit_of_mem_decimal {number : Nat} {char : Char} (member : char ∈ decimal number) :
    isDigit char = true := by
  induction number using decimal.induct with
  | case1 number small =>
    rw [decimal, if_pos small, List.mem_singleton] at member
    exact member ▸ isDigit_digitOf small
  | case2 number large inductionHypothesis =>
    rw [decimal, if_neg large, List.mem_append, List.mem_singleton] at member
    rcases member with earlier | last
    · exact inductionHypothesis earlier
    · exact last ▸ isDigit_digitOf (Nat.mod_lt number (by decide))

theorem decimal_ne_nil (number : Nat) : decimal number ≠ [] := by
  rw [decimal]
  split <;> simp

/-- Only zero is written with a zero in front. -/
theorem head?_decimal {number : Nat} (positive : 0 < number) :
    (decimal number).head? ≠ some '0' := by
  induction number using decimal.induct with
  | case1 number small =>
    rw [decimal, if_pos small]
    have nonzero : ∀ digit : Fin 10, 0 < digit.val → [digitOf digit.val].head? ≠ some '0' := by
      decide
    exact nonzero ⟨number, small⟩ positive
  | case2 number large inductionHypothesis =>
    rw [decimal, if_neg large]
    have head := inductionHypothesis (by omega)
    cases earlier : decimal (number / 10) with
    | nil => exact absurd earlier (decimal_ne_nil _)
    | cons first others =>
      rw [earlier] at head
      exact head

theorem toList_integerText (number : Int) : (integerText number).toList =
    if number < 0 then '-' :: decimal number.natAbs else decimal number.natAbs := by
  rw [integerText, decimalText]
  split
  · rw [String.toList_append, String.toList_ofList, String.toList_ofList]
    rfl
  · exact String.toList_ofList

end Text

end ConnectorSettings
