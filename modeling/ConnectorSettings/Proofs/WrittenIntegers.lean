/-
This file follows an integer from the text of a TOML document into a settings map and out of it
again.

An integer is tried as a text, as a moment, as a number with a fraction and as a special one before
it is read. Each of these gives up: a moment has a mark behind its first digits where the integer
has another digit or ends, and a number with a fraction has more to come. So a value that is written
as an integer is that integer, whatever the document goes on with.
-/

import ConnectorSettings.Proofs.Flattening
import ConnectorSettings.Proofs.Integers

namespace ConnectorSettings

namespace Toml

/-! ### A written integer -/

/-- The digits of a whole number: only zero itself begins with a zero. -/
structure WholeDigits (digits : List Char) : Prop where
  filled : digits ≠ []
  decimal : ∀ char ∈ digits, Text.isDigit char = true
  zero : digits.head? = some '0' → digits = ['0']

theorem wholeDigits_decimal (number : Nat) : WholeDigits (Text.decimal number) where
  filled := Text.decimal_ne_nil number
  decimal := fun _ member => Text.isDigit_of_mem_decimal member
  zero := by
    intro first
    rcases Nat.eq_zero_or_pos number with rfl | positive
    · rw [Text.decimal]
      rfl
    · exact absurd first (Text.head?_decimal positive)

def signText (negative : Bool) : List Char :=
  if negative then ['-'] else []

/-- What may follow a value: a blank, the end of the line, a comment, or the end of an item. -/
def terminators : List Char :=
  [' ', '\t', '\n', '\r', '#', ',', ']', '\x7d']

/-- Nothing follows, or something that no number goes on with. -/
def Terminated (rest : List Char) : Prop :=
  ∀ char ∈ rest.head?, char ∈ terminators

/-- What would make another value of a number: the marks inside numbers and moments, and what other
values begin with. -/
def marks : List Char :=
  ['_', '.', 'e', 'E', '+', '-', ':', 'x', 'o', 'b', 'i', 'n', '\x22', '\x27', '[', '\x7b']

theorem isDigit_of_mem_marks : ∀ mark ∈ marks, Text.isDigit mark = false := by
  have all : (marks.all fun mark => !Text.isDigit mark) = true := by decide
  simpa using all

theorem terminators_apart :
    ∀ char ∈ terminators, Text.isDigit char = false ∧ char ∉ marks := by
  have all : (terminators.all fun char => !Text.isDigit char && !marks.contains char) = true := by
    decide
  simpa using all

theorem ne_of_isDigit {char mark : Char} (digit : Text.isDigit char = true)
    (inside : mark ∈ marks) : char ≠ mark := by
  rintro rfl
  exact Bool.eq_false_iff.mp (isDigit_of_mem_marks char inside) digit

section Written

variable {negative : Bool} {digits rest : List Char}

theorem Terminated.notDigit (ends : Terminated rest) :
    ∀ char ∈ rest.head?, Text.isDigit char = false :=
  fun char first => (terminators_apart char (ends char first)).1

theorem Terminated.ne (ends : Terminated rest) {mark : Char} (inside : mark ∈ marks) :
    ∀ char ∈ rest.head?, char ≠ mark := by
  rintro char first rfl
  exact (terminators_apart char (ends char first)).2 inside

/-- The text begins with a minus or a digit. -/
theorem WholeDigits.head? (whole : WholeDigits digits) (negative : Bool) (rest : List Char) :
    ∀ char ∈ (signText negative ++ (digits ++ rest)).head?,
      char = '-' ∨ Text.isDigit char = true := by
  obtain ⟨first, others, rfl⟩ := List.exists_cons_of_ne_nil whole.filled
  cases negative with
  | true =>
    rintro char ⟨⟩
    exact .inl rfl
  | false =>
    rintro char ⟨⟩
    exact .inr (whole.decimal first List.mem_cons_self)

/-- Where a zero comes first, it is the number. -/
theorem WholeDigits.zero_of_append (whole : WholeDigits digits) {behind : List Char}
    (split : digits ++ rest = '0' :: behind) : digits = ['0'] ∧ rest = behind := by
  have first : digits.head? = some '0' := by
    rw [← List.head?_append_of_ne_nil digits whole.filled, split]
    rfl
  refine ⟨whole.zero first, ?_⟩
  rw [whole.zero first] at split
  exact (List.cons.inj split).2

theorem sign_written (whole : WholeDigits digits) :
    sign (signText negative ++ (digits ++ rest)) = some (negative, digits ++ rest) := by
  cases negative with
  | true => rfl
  | false =>
    obtain ⟨first, others, rfl⟩ := List.exists_cons_of_ne_nil whole.filled
    have digit := whole.decimal first List.mem_cons_self
    show sign (first :: (others ++ rest)) = _
    unfold sign
    split
    · next same => exact absurd (List.cons.inj same).1 (ne_of_isDigit digit (by decide))
    · next same => exact absurd (List.cons.inj same).1 (ne_of_isDigit digit (by decide))
    · rfl

theorem moreDigits_of_terminated (ends : Terminated rest) :
    moreDigits Text.isDigit rest = ([], rest) := by
  unfold moreDigits
  split
  · rfl
  · exact absurd rfl (ends.ne (by decide) '_' rfl)
  · exact if_neg (Bool.eq_false_iff.mp (ends.notDigit _ rfl))

theorem moreDigits_append (decimal : ∀ char ∈ digits, Text.isDigit char = true)
    (ends : Terminated rest) : moreDigits Text.isDigit (digits ++ rest) = (digits, rest) := by
  induction digits with
  | nil => exact moreDigits_of_terminated ends
  | cons char others inductionHypothesis =>
    obtain ⟨digit, later⟩ := List.forall_mem_cons.mp decimal
    rw [List.cons_append]
    unfold moreDigits
    split
    · next same => cases same
    · next same => exact absurd (List.cons.inj same).1 (ne_of_isDigit digit (by decide))
    · next same =>
      cases same
      rw [if_pos digit, inductionHypothesis later]

theorem digitGroup_append (whole : WholeDigits digits) (ends : Terminated rest) :
    digitGroup Text.isDigit (digits ++ rest) = some (digits, rest) := by
  obtain ⟨first, others, rfl⟩ := List.exists_cons_of_ne_nil whole.filled
  obtain ⟨digit, later⟩ := List.forall_mem_cons.mp whole.decimal
  have taken : Scan.satisfying Text.isDigit (first :: others ++ rest) =
      some (first, others ++ rest) := if_pos digit
  rw [digitGroup, Scan.bind_of_some taken]
  show some (first :: (moreDigits Text.isDigit (others ++ rest)).1,
    (moreDigits Text.isDigit (others ++ rest)).2) = _
  rw [moreDigits_append later ends]

theorem wholePart_written (whole : WholeDigits digits) (ends : Terminated rest) :
    wholePart (signText negative ++ (digits ++ rest)) = some ((negative, digits), rest) := by
  rw [wholePart, Scan.bind_of_some (sign_written whole)]
  have group := digitGroup_append whole ends
  generalize written : digits ++ rest = text at group ⊢
  rw [Scan.get_bind]
  split
  · obtain ⟨rfl, rfl⟩ := whole.zero_of_append written
    rfl
  · rw [Scan.bind_of_some group]
    rfl

theorem decimalReal_written (whole : WholeDigits digits) (ends : Terminated rest) :
    decimalReal (signText negative ++ (digits ++ rest)) = none := by
  have noFraction : fractionPart rest = none :=
    Scan.bind_of_none (Scan.char_of_head? (ends.ne (by decide)))
  have noExponent : exponentPart rest = none := by
    refine Scan.bind_of_none (Scan.satisfying_of_head? fun char first => ?_)
    have small : char ≠ 'e' := ends.ne (by decide) char first
    have large : char ≠ 'E' := ends.ne (by decide) char first
    simp [small, large]
  rw [decimalReal, Scan.bind_of_some (wholePart_written whole ends)]
  refine (Scan.bind_of_some (Scan.optional_of_none noFraction)).trans ?_
  exact Scan.bind_of_none noExponent

theorem decimalInteger_written (negative : Bool) (whole : WholeDigits digits)
    (ends : Terminated rest) : decimalInteger (signText negative ++ (digits ++ rest)) =
      some (IntegerKind.withSign negative (Text.decimalNumber digits), rest) := by
  rw [decimalInteger, Scan.bind_of_some (wholePart_written whole ends)]
  rfl

/-- Behind so many digits of the number there is another digit or its end, and no mark. -/
theorem fixedNumber_char_written {α : Type} {count : Nat} (positive : 0 < count) {mark : Char}
    (inside : mark ∈ marks) (whole : WholeDigits digits) (ends : Terminated rest)
    (next : Nat → Unit → Scan α) :
    (fixedNumber count >>= fun number => Scan.char mark >>= next number)
      (signText negative ++ (digits ++ rest)) = none := by
  cases ran : Scan.exactly count Text.isDigit (signText negative ++ (digits ++ rest)) with
  | none => exact Scan.bind_of_none (Scan.bind_of_none ran)
  | some result =>
    obtain ⟨found, behind⟩ := result
    obtain ⟨split, long, decimal⟩ := Scan.exactly_eq_some ran
    have number : fixedNumber count (signText negative ++ (digits ++ rest)) =
        some (Text.decimalNumber found, behind) := Scan.bind_of_some ran
    rw [Scan.bind_of_some number]
    refine Scan.bind_of_none (Scan.char_of_head? fun char first => ?_)
    cases negative with
    | true =>
      obtain ⟨head, others, rfl⟩ := List.exists_cons_of_length_pos (long ▸ positive)
      have minus : '-' = head := (List.cons.inj split).1
      exact absurd (decimal head List.mem_cons_self) (minus ▸ by decide)
    | false =>
      have split : digits ++ rest = found ++ behind := split
      rcases List.append_eq_append_iff.mp split with ⟨passed, rfl, rfl⟩ | ⟨left, rfl, rfl⟩
      · cases passed with
        | nil => exact ends.ne inside char first
        | cons other passed =>
          -- A digit beyond the number would be the first of what follows it.
          exact absurd (decimal other (by simp)) (Bool.eq_false_iff.mp (ends.notDigit other rfl))
      · cases left with
        | nil => exact ends.ne inside char first
        | cons other left =>
          obtain rfl : other = char := Option.some.inj first
          exact ne_of_isDigit (whole.decimal _ (by simp)) inside

theorem moment_written (whole : WholeDigits digits) (ends : Terminated rest) (range : ClockRange) :
    moment range (signText negative ++ (digits ++ rest)) = none := by
  have noDate : date (signText negative ++ (digits ++ rest)) = none :=
    fixedNumber_char_written (by decide) (by decide) whole ends _
  have noTime : time range (signText negative ++ (digits ++ rest)) = none :=
    fixedNumber_char_written (by decide) (by decide) whole ends _
  have noDated : datedMoment range (signText negative ++ (digits ++ rest)) = none :=
    Scan.bind_of_none noDate
  rw [moment, Scan.orElse_of_none noDated]
  exact Scan.bind_of_none noTime

theorem specialReal_written (whole : WholeDigits digits) :
    specialReal (signText negative ++ (digits ++ rest)) = none := by
  have begins : ∀ mark ∈ marks, ∀ found ∈ (digits ++ rest).head?, found ≠ mark := by
    obtain ⟨first, others, rfl⟩ := List.exists_cons_of_ne_nil whole.filled
    rintro mark inside found ⟨⟩
    exact ne_of_isDigit (whole.decimal _ List.mem_cons_self) inside
  rw [specialReal, Scan.bind_of_some (sign_written whole),
    Scan.orElse_of_none (Scan.bind_of_none (Scan.word_of_head? (begins 'i' (by decide))))]
  exact Scan.bind_of_none (Scan.word_of_head? (begins 'n' (by decide)))

theorem word_eq_some {wanted text rest : List Char}
    (ran : Scan.word wanted text = some ((), rest)) : text = wanted ++ rest := by
  obtain ⟨behind, split, same⟩ := Option.map_eq_some_iff.mp ran
  obtain rfl := (Prod.mk.inj same).2
  exact (List.isPrefixOf?_eq_some_iff_append_eq.mp split).symm

theorem basedInteger_written (negative : Bool) (whole : WholeDigits digits)
    (ends : Terminated rest) {mark : Char} (inside : mark ∈ marks) (base : Nat) :
    basedInteger mark base (signText negative ++ (digits ++ rest)) = none := by
  refine Scan.bind_of_none ?_
  cases ran : Scan.word ['0', mark] (signText negative ++ (digits ++ rest)) with
  | none => rfl
  | some result =>
    have split := word_eq_some ran
    cases negative with
    | true => exact absurd (List.cons.inj split).1 (by decide)
    | false =>
      obtain ⟨-, rfl⟩ := whole.zero_of_append split
      exact absurd rfl (ends.ne inside mark rfl)

theorem integer_written (whole : WholeDigits digits) (ends : Terminated rest)
    (fits : IntegerKind.signed64.contains
      (IntegerKind.withSign negative (Text.decimalNumber digits)) = true) :
    integer (signText negative ++ (digits ++ rest)) =
      some (IntegerKind.withSign negative (Text.decimalNumber digits), rest) := by
  have based (mark : Char) (inside : mark ∈ marks) (base : Nat) :=
    basedInteger_written negative whole ends inside base
  have tried :
      (basedInteger 'x' 16 <|> basedInteger 'o' 8 <|> basedInteger 'b' 2 <|> decimalInteger)
        (signText negative ++ (digits ++ rest)) =
          some (IntegerKind.withSign negative (Text.decimalNumber digits), rest) := by
    rw [Scan.orElse_of_none (based 'x' (by decide) 16),
      Scan.orElse_of_none (based 'o' (by decide) 8),
      Scan.orElse_of_none (based 'b' (by decide) 2), decimalInteger_written negative whole ends]
  rw [integer, Scan.bind_of_some tried, Scan.bind_of_some (Scan.guard_of fits)]
  rfl

theorem anyText_of_head? {text : List Char}
    (other : ∀ char ∈ text.head?, char ≠ '\x22' ∧ char ≠ '\x27') : anyText text = none := by
  rw [anyText, Scan.get_bind]
  split
  · exact absurd rfl (other _ rfl).1
  · exact absurd rfl (other _ rfl).2
  · unfold lineText
    split
    · exact absurd rfl (other _ rfl).1
    · exact absurd rfl (other _ rfl).2
    · rfl

theorem scalar_written (negative : Bool) (whole : WholeDigits digits) (ends : Terminated rest)
    (fits : IntegerKind.signed64.contains
      (IntegerKind.withSign negative (Text.decimalNumber digits)) = true) :
    scalar (signText negative ++ (digits ++ rest)) =
      some (.integer (IntegerKind.withSign negative (Text.decimalNumber digits)), rest) := by
  have noText : anyText (signText negative ++ (digits ++ rest)) = none := by
    refine anyText_of_head? fun char first => ?_
    rcases whole.head? negative rest char first with rfl | digit
    · decide
    · exact ⟨ne_of_isDigit digit (by decide), ne_of_isDigit digit (by decide)⟩
  rw [scalar, Scan.orElse_of_none (Scan.bind_of_none noText),
    Scan.orElse_of_none (Scan.bind_of_none (moment_written whole ends .plain)),
    Scan.orElse_of_none (Scan.bind_of_none (decimalReal_written whole ends)),
    Scan.orElse_of_none (Scan.bind_of_none (specialReal_written whole))]
  exact Scan.orElse_of_some (Scan.bind_of_some (integer_written whole ends fits))

end Written

theorem integerText_append (number : Int) (rest : List Char) :
    (Text.integerText number).toList ++ rest =
      signText (decide (number < 0)) ++ (Text.decimal number.natAbs ++ rest) := by
  rw [Text.toList_integerText]
  split <;> simp [signText, *]

/-- An integer of sixty-four bits is read as it is written, and the text behind it is left. -/
theorem value_integerText {number : Int} (fits : IntegerKind.signed64.contains number = true)
    {rest : List Char} (ends : Terminated rest) (room : Nat) :
    value room ((Text.integerText number).toList ++ rest) = some (.integer number, rest) := by
  have whole := wholeDigits_decimal number.natAbs
  have denoted : IntegerKind.withSign (decide (number < 0))
      (Text.decimalNumber (Text.decimal number.natAbs)) = number := by
    rw [Text.decimalNumber_decimal, IntegerKind.withSign_natAbs]
  have read := scalar_written (decide (number < 0)) whole ends (denoted.symm ▸ fits)
  have begins := whole.head? (decide (number < 0)) rest
  rw [denoted] at read
  rw [integerText_append]
  generalize signText _ ++ (_ ++ rest) = text at read begins ⊢
  cases room with
  | zero => exact read
  | succ room =>
    rw [value, Scan.get_bind]
    split
    · rcases begins _ rfl with minus | digit
      · exact absurd minus (by decide)
      · exact absurd rfl (ne_of_isDigit digit (by decide))
    · rcases begins _ rfl with minus | digit
      · exact absurd minus (by decide)
      · exact absurd rfl (ne_of_isDigit digit (by decide))
    · exact read

/-! ### A document of one line -/

theorem skipBlanks_append {rest : List Char} (blanks : List Char)
    (blank : ∀ char ∈ blanks, isTomlBlank char = true)
    (filled : ∀ char ∈ rest.head?, isTomlBlank char = false) :
    skipBlanks (blanks ++ rest) = some ((), rest) := by
  have many : Scan.many isTomlBlank (blanks ++ rest) = some (blanks, rest) := by
    obtain ⟨taken, dropped⟩ := Text.takeWhile_dropWhile_append blank filled
    rw [Scan.many, taken, dropped]
  exact Scan.bind_of_some many

/-- A key of letters, digits, dashes and underscores. -/
structure BareKey (key : List Char) : Prop where
  filled : key ≠ []
  chars : ∀ char ∈ key, isBareChar char = true

theorem BareKey.ne {key : List Char} (bare : BareKey key) (rest : List Char) :
    ∀ char ∈ (key ++ rest).head?,
      isTomlBlank char = false ∧ char ∉ ['\x22', '\x27', '#', '\n', '\r', '[', '\uFEFF'] := by
  obtain ⟨first, others, rfl⟩ := List.exists_cons_of_ne_nil bare.filled
  have bareFirst := bare.chars first List.mem_cons_self
  have refused : ([' ', '\t', '\x22', '\x27', '#', '\n', '\r', '[', '\uFEFF'].all fun other =>
      !isBareChar other) = true := by decide
  have apart : ∀ other ∈ [' ', '\t', '\x22', '\x27', '#', '\n', '\r', '[', '\uFEFF'],
      first ≠ other := by
    rintro other member rfl
    have unbare := List.all_eq_true.mp refused first member
    rw [bareFirst] at unbare
    cases unbare
  rintro char ⟨⟩
  simp only [List.forall_mem_cons] at apart
  simp [isTomlBlank, apart]

theorem keyPart_bare {key : List Char} (bare : BareKey key) {rest : List Char} :
    keyPart (key ++ ' ' :: '=' :: rest) = some (String.ofList key, '=' :: rest) := by
  have blanksBefore : skipBlanks (key ++ ' ' :: '=' :: rest) =
      some ((), key ++ ' ' :: '=' :: rest) :=
    skipBlanks_append [] nofun fun char first => (bare.ne _ char first).1
  have noText : lineText (key ++ ' ' :: '=' :: rest) = none := by
    have begins := bare.ne (' ' :: '=' :: rest)
    generalize key ++ ' ' :: '=' :: rest = text at begins ⊢
    unfold lineText
    split
    · exact absurd (begins _ rfl).2 (by decide)
    · exact absurd (begins _ rfl).2 (by decide)
    · rfl
  have taken : Scan.some? isBareChar (key ++ ' ' :: '=' :: rest) =
      some (key, ' ' :: '=' :: rest) := by
    have ends : ∀ char ∈ (' ' :: '=' :: rest).head?, isBareChar char = false := by
      rintro _ ⟨⟩
      decide
    obtain ⟨front, behind⟩ := Text.takeWhile_dropWhile_append bare.chars ends
    have many : Scan.many isBareChar (key ++ ' ' :: '=' :: rest) =
        some (key, ' ' :: '=' :: rest) := by
      rw [Scan.many, front, behind]
    rw [Scan.some?, Scan.bind_of_some many]
    have filled : (!key.isEmpty) = true := by simpa using bare.filled
    rw [Scan.bind_of_some (Scan.guard_of filled)]
    rfl
  have blanksBehind : skipBlanks (' ' :: '=' :: rest) = some ((), '=' :: rest) :=
    skipBlanks_append [' '] (List.all_eq_true.mp (by decide)) (by rintro _ ⟨⟩; decide)
  rw [keyPart, Scan.bind_of_some blanksBefore,
    Scan.bind_of_some ((Scan.orElse_of_none noText).trans taken), Scan.bind_of_some blanksBehind]
  rfl

theorem dottedKey_bare {key : List Char} (bare : BareKey key) {rest : List Char} :
    dottedKey (key ++ ' ' :: '=' :: rest) = some ([String.ofList key], '=' :: rest) := by
  have one (bound : Nat) : Scan.separated keyPart '.' (bound + 1) (key ++ ' ' :: '=' :: rest) =
      some ([String.ofList key], '=' :: rest) := by
    have noPoint : Scan.optional (Scan.char '.') ('=' :: rest) = some (none, '=' :: rest) := rfl
    rw [Scan.separated, Scan.bind_of_some (keyPart_bare bare), Scan.bind_of_some noPoint]
    rfl
  rw [dottedKey, Scan.get_bind, Scan.bind_of_some (one _)]
  exact Scan.bind_of_some (Scan.guard_of (show 1 ≤ depthLimit by decide))

/-- The characters of a line that gives a key an integer. -/
def integerLine (key : List Char) (number : Int) : List Char :=
  key ++ ' ' :: '=' :: ' ' :: ((Text.integerText number).toList ++ ['\n'])

theorem pair_integerLine {key : List Char} (bare : BareKey key) {number : Int}
    (fits : IntegerKind.signed64.contains number = true) :
    pair (value depthLimit) (integerLine key number) =
      some (([String.ofList key], .integer number), ['\n']) := by
  have equals (rest : List Char) : Scan.char '=' ('=' :: rest) = some ((), rest) := rfl
  have blank : skipBlanks (' ' :: ((Text.integerText number).toList ++ ['\n'])) =
      some ((), (Text.integerText number).toList ++ ['\n']) := by
    refine skipBlanks_append [' '] (List.all_eq_true.mp (by decide)) fun char first => ?_
    have first : char ∈ ((Text.integerText number).toList ++ ['\n']).head? := first
    rw [integerText_append] at first
    rcases (wholeDigits_decimal _).head? _ _ char first with rfl | digit
    · decide
    · have notBlank : char ≠ ' ' ∧ char ≠ '\t' := by
        constructor <;> rintro rfl <;> exact absurd digit (by decide)
      simp [isTomlBlank, notBlank]
  have ends : Terminated ['\n'] := by
    rintro _ ⟨⟩
    decide
  rw [pair, integerLine, Scan.bind_of_some (dottedKey_bare bare), Scan.bind_of_some (equals _),
    Scan.bind_of_some blank, Scan.bind_of_some (value_integerText fits ends depthLimit)]
  rfl

theorem lines_integerLine {key : List Char} (bare : BareKey key) {number : Int}
    (fits : IntegerKind.signed64.contains number = true) (bound : Nat) :
    lines (bound + 2) [] [] (integerLine key number) =
      some ([(String.ofList key, .value (.integer number))], []) := by
  have begins : ∀ char ∈ (integerLine key number).head?, _ := bare.ne _
  have filled : integerLine key number ≠ [] := List.append_ne_nil_of_left_ne_nil bare.filled _
  have read := pair_integerLine bare fits
  generalize integerLine key number = text at begins filled read ⊢
  have unblank : skipBlanks text = some ((), text) :=
    skipBlanks_append [] nofun fun char first => (begins char first).1
  rw [lines, Scan.bind_of_some unblank, Scan.get_bind]
  split
  · exact absurd rfl filled
  · exact absurd (begins _ rfl).2 (by decide)
  · exact absurd (begins _ rfl).2 (by decide)
  · exact absurd (begins _ rfl).2 (by decide)
  · exact absurd (begins _ rfl).2 (by decide)
  · rw [Scan.bind_of_some read]
    rfl

theorem parse?_integerLine {key : List Char} (bare : BareKey key) {number : Int}
    (fits : IntegerKind.signed64.contains number = true) :
    parse? (String.ofList (integerLine key number)) =
      some [(String.ofList key, .integer number)] := by
  have begins : ∀ char ∈ (integerLine key number).head?, _ := bare.ne _
  have filled : integerLine key number ≠ [] := List.append_ne_nil_of_left_ne_nil bare.filled _
  have read := lines_integerLine bare fits
  unfold parse?
  rw [String.toList_ofList]
  generalize integerLine key number = text at begins filled read ⊢
  split
  · exact absurd (begins _ rfl).2 (by decide)
  · obtain ⟨first, others, rfl⟩ := List.exists_cons_of_ne_nil filled
    show (lines (others.length + 2) [] [] (first :: others)).map _ = _
    rw [read]
    rfl

/-! ### Integers of a document -/

theorem fromToml_integerLine {key : List Char} (bare : BareKey key) {number : Int}
    (fits : IntegerKind.signed64.contains number = true) (path : String) :
    Source.fromToml path (String.ofList (integerLine key number)) =
      .ok (SettingsMap.ofList [(String.ofList key, Text.integerText number)]) := by
  have given : (parse? (String.ofList (integerLine key number))).bind normalTable? =
      some [(String.ofList key, .integer number)] := by
    rw [parse?_integerLine bare fits]
    rfl
  rw [fromToml_eq given]
  rfl

/-- A text is read as an integer of a kind exactly if it is a numeral for a number that the kind
has, and refused with its key otherwise; it makes no difference whether the range is looked at once
or after each digit. Each integer in the table of a document comes to the map under the key of its
path, where no other value takes its place, and is read back from there as far as the kind goes. So
is an integer of sixty-four bits that a document gives to a bare key. -/
theorem integers_survive (kind : IntegerKind) :
    (∀ key raw bounded, readValue (BoundedInt kind) key raw = .ok bounded ↔
      IntegerKind.Numeral kind raw.toList bounded.value ∧ kind.InRange bounded.value) ∧
    (∀ key raw error, readValue (BoundedInt kind) key raw = .error error ↔
      error = .malformed key raw "integer" ∧
        ¬ ∃ number, IntegerKind.Numeral kind raw.toList number ∧ kind.InRange number) ∧
    (∀ raw : String,
      kind.stepwise? raw.toList = (BoundedInt.read? kind raw).map BoundedInt.value) ∧
    (∀ table map before path number after, flatten table = .ok map →
      tableStops table = before ++ (path, .integer number) :: after →
      (∀ later ∈ after, namedPath later.1 ≠ namedPath path) →
        BoundedInt.ReadsBack kind map (namedPath path) number) ∧
    ∀ key number path, BareKey key → IntegerKind.signed64.InRange number →
      ∃ map, Source.fromToml path (String.ofList (integerLine key number)) = .ok map ∧
        BoundedInt.ReadsBack kind map (String.ofList key) number := by
  refine ⟨fun key raw bounded => ?_, fun key raw error => ?_, BoundedInt.stepwise?_eq_read?,
    fun table map before path number after flattened split last => ?_,
    fun key number path bare inRange => ?_⟩
  · have inRange := IntegerKind.contains_iff_inRange.mp bounded.inRange
    rw [readValue_eq_ok_iff, and_iff_left inRange]
    exact BoundedInt.read?_eq_some_iff
  · rw [readValue_eq_error_iff, and_comm, ← BoundedInt.exists_read?_iff]
    refine and_congr_right fun _ => ?_
    rw [← Option.isSome_iff_exists, Option.not_isSome_iff_eq_none]
    rfl
  · exact BoundedInt.readsBack_of_get? (get?_of_last flattened split rfl last)
  · have fits := IntegerKind.contains_iff_inRange.mpr inRange
    refine ⟨_, fromToml_integerLine bare fits path, BoundedInt.readsBack_of_get? ?_⟩
    simp [SettingsMap.ofList, SettingsMap.insertAll, SettingsMap.get?_insert]

/-- The least number of sixty-four bits is read back whole by a kind that has it, and refused by one
that lacks it. -/
theorem integers_survive_least :
    ∃ map, Source.fromToml "conf.toml" "least = -9223372036854775808\n" = .ok map ∧
      (∃ bounded : BoundedInt .signed64, bounded.value = -9223372036854775808 ∧
        map.getAs (BoundedInt .signed64) "least" = .ok (some bounded)) ∧
      map.getAs (BoundedInt .word) "least" =
        .error (.malformed "least" "-9223372036854775808" "integer") := by
  have bare : BareKey "least".toList := ⟨by decide, List.all_eq_true.mp (by decide)⟩
  have fits : IntegerKind.signed64.InRange (-9223372036854775808) :=
    IntegerKind.contains_iff_inRange.mp (by decide)
  have lacks : ¬ IntegerKind.word.InRange (-9223372036854775808) :=
    fun inRange => absurd (IntegerKind.contains_iff_inRange.mpr inRange) (by decide)
  have line : integerLine "least".toList (-9223372036854775808) =
      "least = -9223372036854775808\n".toList := by decide +kernel
  have text : Text.integerText (-9223372036854775808) = "-9223372036854775808" := by decide +kernel
  obtain ⟨map, given, whole⟩ :=
    (integers_survive .signed64).2.2.2.2 "least".toList _ "conf.toml" bare fits
  obtain ⟨_, again, refused⟩ :=
    (integers_survive .word).2.2.2.2 "least".toList _ "conf.toml" bare fits
  obtain rfl := Except.ok.inj (given.symm.trans again)
  have outside := refused.outside lacks
  rw [line, String.ofList_toList] at given
  rw [text] at outside
  exact ⟨map, given, whole.inside fits, outside⟩

end Toml

end ConnectorSettings
