/-
This file says what the library needs to know about files: whether a path names something, and the
text that reading it gives or the reason why it gives none. Who answers, a disk or a tree in memory,
is left open, so everything built on files is a function of the answers.
-/

import ConnectorSettings.Text.Utf8

namespace ConnectorSettings

inductive ReadFailure where
  | notFound
  | notDirectory
  | isDirectory
  /-- The bytes of the file are no text. -/
  | notText
  deriving DecidableEq, Repr

namespace ReadFailure

def message : ReadFailure → String
  | notFound => "No such file or directory (os error 2)"
  | notDirectory => "Not a directory (os error 20)"
  | isDirectory => "Is a directory (os error 21)"
  | notText => "stream did not contain valid UTF-8"

end ReadFailure

structure Files where
  isPresent : String → Bool
  read : String → Except ReadFailure String

/-- The text of a file's bytes. -/
def decodeFile (bytes : Utf8.Bytes) : Except ReadFailure String :=
  match Utf8.decode? bytes with
  | some text => .ok text
  | none => .error .notText

end ConnectorSettings
