/-
This file holds the small steps that reading TOML is made of.

A scan takes something off the front of a text or fails, and a failed scan has taken nothing: the
text it was given is still at hand for an alternative. Nothing here decides between alternatives by
looking ahead further than the grammar does.

The lemmas about single steps tell how a scan goes on, or that it fails, from what the text begins
with.
-/

namespace ConnectorSettings

namespace Toml

abbrev Scan := StateT (List Char) Option

namespace Scan

variable {α : Type}

/-- Runs a scan on a text and gives what is left of it. -/
def from? (scan : Scan α) (text : List Char) : Option (α × List Char) :=
  scan text

def satisfying (accepts : Char → Bool) : Scan Char := fun text =>
  match text with
  | char :: rest => if accepts char then some (char, rest) else none
  | [] => none

def char (wanted : Char) : Scan Unit := fun text =>
  match text with
  | found :: rest => if found = wanted then some ((), rest) else none
  | [] => none

def word (wanted : List Char) : Scan Unit := fun text =>
  (wanted.isPrefixOf? text).map fun rest => ((), rest)

/-- The longest stretch of accepted characters, which may be empty. -/
def many (accepts : Char → Bool) : Scan (List Char) := fun text =>
  some (text.takeWhile accepts, text.dropWhile accepts)

/-- The longest stretch of accepted characters, at least one. -/
def some? (accepts : Char → Bool) : Scan (List Char) := do
  let found ← many accepts
  guard !found.isEmpty
  return found

/-- Exactly `count` accepted characters, whatever follows. -/
def exactly (count : Nat) (accepts : Char → Bool) : Scan (List Char) := fun text =>
  let found := text.take count
  if found.length = count && found.all accepts then some (found, text.drop count) else none

def optional (scan : Scan α) : Scan (Option α) := fun text =>
  match scan text with
  | some (value, rest) => some (some value, rest)
  | none => some (none, text)

/-- One item or more with a separator between them, at most `bound` items. -/
def separated (item : Scan α) (separator : Char) : Nat → Scan (List α)
  | 0 => failure
  | bound + 1 => do
    let first ← item
    match ← optional (char separator) with
    | some _ => return first :: (← separated item separator bound)
    | none => return [first]

/-! ### What a step does -/

variable {β : Type} {text rest : List Char}

theorem bind_of_some {scan : Scan α} {next : α → Scan β} {value : α}
    (ran : scan text = some (value, rest)) : (scan >>= next) text = next value rest := by
  show (scan text).bind _ = _
  rw [ran]
  rfl

theorem bind_of_none {scan : Scan α} {next : α → Scan β} (failed : scan text = none) :
    (scan >>= next) text = none := by
  show (scan text).bind _ = _
  rw [failed]
  rfl

theorem get_bind (next : List Char → Scan α) : (get >>= next) text = next text text := rfl

theorem orElse_of_some {scan other : Scan α} {value : α} (ran : scan text = some (value, rest)) :
    (scan <|> other) text = some (value, rest) := by
  show (scan text <|> other text) = _
  rw [ran]
  rfl

theorem orElse_of_none {scan other : Scan α} (failed : scan text = none) :
    (scan <|> other) text = other text := by
  show (scan text <|> other text) = _
  rw [failed]
  rfl

theorem optional_of_none {scan : Scan α} (failed : scan text = none) :
    optional scan text = some (none, text) := by
  rw [optional, failed]

theorem char_of_head? {wanted : Char} (other : ∀ found ∈ text.head?, found ≠ wanted) :
    Scan.char wanted text = none := by
  cases text with
  | nil => rfl
  | cons found rest => exact if_neg (other found rfl)

theorem word_of_head? {first : Char} {others : List Char}
    (other : ∀ found ∈ text.head?, found ≠ first) : word (first :: others) text = none := by
  cases text with
  | nil => rfl
  | cons found rest =>
    have differs : ¬ (first == found) = true := fun same =>
      other found rfl (beq_iff_eq.mp same).symm
    have refused : (first :: others).isPrefixOf? (found :: rest) = none := if_neg differs
    exact congrArg (Option.map fun rest => ((), rest)) refused

theorem exactly_eq_some {count : Nat} {accepts : Char → Bool} {found : List Char}
    (ran : exactly count accepts text = some (found, rest)) :
    text = found ++ rest ∧ found.length = count ∧ ∀ char ∈ found, accepts char = true := by
  simp only [exactly, Option.ite_none_right_eq_some, Option.some.injEq, Prod.mk.injEq,
    Bool.and_eq_true, decide_eq_true_eq, List.all_eq_true] at ran
  obtain ⟨⟨long, accepted⟩, rfl, rfl⟩ := ran
  exact ⟨(List.take_append_drop count text).symm, long, accepted⟩

theorem guard_of {condition : Prop} [Decidable condition] (holds : condition) :
    (guard condition : Scan Unit) text = some ((), text) :=
  congrFun (if_pos holds : (guard condition : Scan Unit) = pure ()) text

theorem satisfying_of_head? {accepts : Char → Bool}
    (refused : ∀ found ∈ text.head?, accepts found = false) : satisfying accepts text = none := by
  cases text with
  | nil => rfl
  | cons found rest => exact if_neg (Bool.eq_false_iff.mp (refused found rfl))

end Scan

/-! ### Blanks, comments and line ends -/

def isTomlBlank (char : Char) : Bool :=
  char == ' ' || char == '\t'

def isNonAscii (char : Char) : Bool :=
  0x80 ≤ char.toNat

/-- What may stand in a comment: anything but control characters, the tab excepted. -/
def isCommentChar (char : Char) : Bool :=
  char == '\t' || (0x20 ≤ char.toNat && char.toNat ≤ 0x7E) || isNonAscii char

def skipBlanks : Scan Unit := do
  let _ ← Scan.many isTomlBlank

/-- A line feed, with or without a carriage return before it. -/
def lineFeed : Scan Unit :=
  Scan.char '\n' <|> Scan.word ['\r', '\n']

/-- The end of the text. -/
def endOfText : Scan Unit := fun text =>
  if text.isEmpty then some ((), text) else none

/-- Blanks, a comment if there is one, and the end of the line or of the text. -/
def endOfLine : Scan Unit := do
  skipBlanks
  match ← Scan.optional (Scan.char '#') with
  | some _ =>
    let _ ← Scan.many isCommentChar
    lineFeed <|> endOfText
  | none => lineFeed <|> endOfText

/-- Blanks, line ends and whole comments, up to the first character that is none of them. Inside a
comment the scan waits for its line end, which has to come. -/
def skipLinesFrom (inComment : Bool) : List Char → Option (List Char)
  | [] => if inComment then none else some []
  | '\n' :: rest => skipLinesFrom false rest
  | '\r' :: '\n' :: rest => skipLinesFrom false rest
  | char :: rest =>
    if inComment then (if isCommentChar char then skipLinesFrom true rest else none)
    else if char == '#' then skipLinesFrom true rest
    else if isTomlBlank char then skipLinesFrom false rest
    else some (char :: rest)

def skipLines : Scan Unit := fun text =>
  (skipLinesFrom false text).map fun rest => ((), rest)

end Toml

end ConnectorSettings
