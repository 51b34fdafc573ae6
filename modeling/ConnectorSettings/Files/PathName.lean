/-
This file computes with path names as texts.

A path name is a text whose parts are separated by slashes. Two names are joined and a name is cut
without looking at any disk, so nothing is normalised beyond what the operations say: parts that
name the same directory twice, and steps up, stay as they are written.
-/

import ConnectorSettings.Text.Split

namespace ConnectorSettings

namespace PathName

def parts (path : String) : List (List Char) :=
  Text.splitOn '/' path.toList

def isAbsolute (path : String) : Bool :=
  path.toList.head? == some '/'

/-- A name inside a directory; an absolute name stands alone. -/
def join (directory name : String) : String :=
  if isAbsolute name || directory.isEmpty then name
  else if directory.toList.getLast? == some '/' then directory ++ name
  else directory ++ "/" ++ name

/-- A part that does not change the directory it stands in. -/
def isIdle (part : List Char) : Bool :=
  part.isEmpty || part == ['.']

/-- Parts without the idle ones at the end; the first part, which tells an absolute name from a
relative one, always stays. -/
def dropIdleEnd : List (List Char) → List (List Char)
  | [] => []
  | first :: rest => first :: (rest.reverse.dropWhile isIdle).reverse

/-- The directory a file is in, as far as the file's name tells. -/
def parent (path : String) : String :=
  match dropIdleEnd (parts path).dropLast with
  | [[]] => "/"
  | kept => String.ofList (Text.joinWith ['/'] kept)

/-- The last part that names something, unless it is a step up. -/
def fileName? (path : String) : Option (List Char) :=
  match (parts path).reverse.dropWhile isIdle with
  | name :: _ => if name == ['.', '.'] then none else some name
  | [] => none

/-- What stands behind the last point of the file's name; a point in front does not count. -/
def extension? (path : String) : Option String :=
  match fileName? path with
  | none => none
  | some name =>
    let after := name.reverse.takeWhile (· != '.')
    let before := name.reverse.drop (after.length + 1)
    if before.isEmpty then none else some (String.ofList after.reverse)

end PathName

end ConnectorSettings
