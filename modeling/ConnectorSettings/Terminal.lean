/-
This file holds text with styles, as terminals show it.

Text is a list of segments, and each segment is plain or in one style. Without colour a segment is
its text. With colour, styled text stands between the sequence that opens the style and the reset
that ends it; a reset inside the text would end the style too early, so the style is opened again
behind it.
-/

namespace ConnectorSettings

namespace Terminal

inductive Style where
  | bold
  | dimmed
  | green
  | cyan
  deriving DecidableEq, Repr

/-- The sequence that opens a style. -/
def Style.opening : Style → List Char
  | .bold => ['\x1b', '[', '1', 'm']
  | .dimmed => ['\x1b', '[', '2', 'm']
  | .green => ['\x1b', '[', '3', '2', 'm']
  | .cyan => ['\x1b', '[', '3', '6', 'm']

/-- The sequence that ends every style. -/
def reset : List Char := ['\x1b', '[', '0', 'm']

/-- A text with the opening sequence behind every reset in it. -/
def reopened (opening : List Char) : List Char → List Char
  | [] => []
  | '\x1b' :: '[' :: '0' :: 'm' :: text => reset ++ opening ++ reopened opening text
  | char :: text => char :: reopened opening text

def painted (style : Style) (text : List Char) : List Char :=
  style.opening ++ reopened style.opening text ++ reset

inductive Segment where
  | plain (text : String)
  | styled (style : Style) (text : String)
  deriving DecidableEq, Repr

def Segment.text : Segment → String
  | .plain text => text
  | .styled _ text => text

def Segment.write (color : Bool) : Segment → List Char
  | .plain text => text.toList
  | .styled style text => if color then painted style text.toList else text.toList

def render (color : Bool) (segments : List Segment) : String :=
  String.ofList (segments.flatMap fun segment => segment.write color)

theorem toList_render (color : Bool) (segments : List Segment) :
    (render color segments).toList = segments.flatMap fun segment => segment.write color :=
  String.toList_ofList

theorem Segment.write_false (segment : Segment) : segment.write false = segment.text.toList := by
  cases segment <;> rfl

end Terminal

end ConnectorSettings
