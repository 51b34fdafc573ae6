/-
This file holds the grammar of JSON records whose values are texts, apart from how one is read.

A text has many spellings. Inside its quotes, a character stands for itself, or it is given by a
letter behind a backslash, or by number: one escape of four base-sixteen digits, in either case, for
each of its UTF-16 code units. A quote, a backslash and the control characters below the space
cannot stand for themselves. Half of a pair of surrogates is the code unit of no character, so it
spells nothing by itself. Blanks may stand around every text and around the whole record.

The members of a record are a list, in which a name may occur more than once.
-/

import ConnectorSettings.Properties.Ascii

namespace ConnectorSettings

namespace Json

open Properties (codeUnits)

/-! ### Texts -/

/-- The letters that stand for a character behind a backslash. -/
def letterEscapes : List (Char × Char) :=
  [('\x22', '\x22'), ('\\', '\\'), ('/', '/'), ('b', '\x08'), ('f', '\x0c'), ('n', '\n'),
    ('r', '\r'), ('t', '\t')]

/-- The code unit is written by number. -/
inductive SpellsUnit : Nat → List Char → Prop
  | digits {a b c d : Char} {w x y z : Nat} (first : Text.hexValue? a = some w)
      (second : Text.hexValue? b = some x) (third : Text.hexValue? c = some y)
      (fourth : Text.hexValue? d = some z) :
      SpellsUnit (((w * 16 + x) * 16 + y) * 16 + z) ['\\', 'u', a, b, c, d]

/-- The character is spelled like this inside quotes. -/
inductive SpellsChar (char : Char) : List Char → Prop
  | itself (notQuote : char ≠ '\x22') (notBackslash : char ≠ '\\')
      (noControl : 0x20 ≤ char.toNat) : SpellsChar char [char]
  | letter {letter : Char} (listed : (letter, char) ∈ letterEscapes) :
      SpellsChar char ['\\', letter]
  | number {unit : Nat} {written : List Char} (units : codeUnits char = [unit])
      (spelled : SpellsUnit unit written) : SpellsChar char written
  | pair {high low : Nat} {first second : List Char} (units : codeUnits char = [high, low])
      (spelledHigh : SpellsUnit high first) (spelledLow : SpellsUnit low second) :
      SpellsChar char (first ++ second)

/-- The text is spelled like this inside quotes, one character after the other. -/
inductive SpellsText : List Char → List Char → Prop
  | nil : SpellsText [] []
  | cons {char : Char} {written text rest : List Char} (first : SpellsChar char written)
      (others : SpellsText text rest) : SpellsText (char :: text) (written ++ rest)

/-! ### Records -/

/-- The text is made of blanks: spaces, tabs and line ends. -/
def AreBlanks (text : List Char) : Prop :=
  ∀ char ∈ text, char ∈ [' ', '\t', '\n', '\r']

/-- The core is written like this, with blanks around it. -/
inductive InBlanks (core : List Char) : List Char → Prop
  | around {before after : List Char} (blankBefore : AreBlanks before)
      (blankAfter : AreBlanks after) : InBlanks core (before ++ (core ++ after))

/-- The text is written like this, in quotes. -/
inductive SpellsQuoted (text : String) : List Char → Prop
  | quoted {inside written : List Char} (spelled : SpellsText text.toList inside)
      (spaced : InBlanks ('\x22' :: (inside ++ ['\x22'])) written) : SpellsQuoted text written

/-- The members are written like this, one or more, with commas between them. -/
inductive SpellsMembers : List (String × String) → List Char → Prop
  | single {name value : String} {left right : List Char} (spelledName : SpellsQuoted name left)
      (spelledValue : SpellsQuoted value right) :
      SpellsMembers [(name, value)] (left ++ ':' :: right)
  | cons {name value : String} {left right rest : List Char} {others : List (String × String)}
      (spelledName : SpellsQuoted name left) (spelledValue : SpellsQuoted value right)
      (spelledOthers : SpellsMembers others rest) :
      SpellsMembers ((name, value) :: others) (left ++ ':' :: (right ++ ',' :: rest))

/-- The record of these members is written like this. The braces are written by their own code
points here. -/
inductive SpellsRecord : List (String × String) → List Char → Prop
  | empty {inside written : List Char} (blank : AreBlanks inside)
      (spaced : InBlanks ('\x7b' :: (inside ++ ['\x7d'])) written) : SpellsRecord [] written
  | members {members : List (String × String)} {inside written : List Char}
      (spelled : SpellsMembers members inside)
      (spaced : InBlanks ('\x7b' :: (inside ++ ['\x7d'])) written) : SpellsRecord members written

end Json

end ConnectorSettings
