/-
This file says which characters are blank and cuts blanks off the ends of a text.

Settings are written by people, in files and on command lines, so a value arrives with blanks
around it as often as not. Every reader of this library drops the same set of them: the
characters with the Unicode property White_Space, twenty-five in all. The property is a
closed table that the standard promises not to shrink, and it is wider than what a terminal
shows as a space: the no-break space and the line separator are in it, the zero-width space is
not.

The functions work on lists of characters, where a cut is a recursion on the data, and
`Text.trimmed` carries them over to strings.
-/

namespace ConnectorSettings

namespace Text

/-- The Unicode property White_Space. -/
def isBlank (char : Char) : Bool :=
  let code := char.toNat
  (0x9 ≤ code && code ≤ 0xD) || code == 0x20 || code == 0x85 || code == 0xA0 || code == 0x1680 ||
    (0x2000 ≤ code && code ≤ 0x200A) || code == 0x2028 || code == 0x2029 || code == 0x202F ||
    code == 0x205F || code == 0x3000

/-! ### Cutting the ends -/

def trimStart (text : List Char) : List Char :=
  text.dropWhile isBlank

def trimEnd (text : List Char) : List Char :=
  (text.reverse.dropWhile isBlank).reverse

/-- A text without the blanks at its two ends; blanks inside stay. -/
def trim (text : List Char) : List Char :=
  trimEnd (trimStart text)

/-- `trim` on strings. -/
def trimmed (text : String) : String :=
  String.ofList (trim text.toList)

theorem trimStart_append_of_blank {blanks : List Char}
    (blank : ∀ char ∈ blanks, isBlank char = true) (text : List Char) :
    trimStart (blanks ++ text) = trimStart text :=
  List.dropWhile_append_of_pos blank

/-- A text that begins with no blank is not cut. -/
theorem trimStart_of_head? {text : List Char} (filled : ∀ char ∈ text.head?, isBlank char = false) :
    trimStart text = text := by
  cases text with
  | nil => rfl
  | cons char rest =>
    exact List.dropWhile_cons_of_neg (Bool.eq_false_iff.mp (filled char rfl))

/-- A text without blanks is not cut at either end. -/
theorem trim_of_filled {text : List Char} (filled : ∀ char ∈ text, isBlank char = false) :
    trim text = text := by
  have atStart : trimStart text = text :=
    trimStart_of_head? fun char first => filled char (List.mem_of_mem_head? first)
  have atEnd : trimStart text.reverse = text.reverse :=
    trimStart_of_head? fun char first =>
      filled char (List.mem_reverse.mp (List.mem_of_mem_head? first))
  rw [trim, atStart, trimEnd]
  exact (congrArg List.reverse atEnd).trans (List.reverse_reverse text)

end Text

end ConnectorSettings
