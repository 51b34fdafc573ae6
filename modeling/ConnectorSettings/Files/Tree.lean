/-
This file keeps files in memory.

A tree is a list of absolute places with what stands there; the directories on the way to a place
exist with it. A path is walked part by part from a starting directory. Every step needs a directory
to stand in, also one that goes nowhere, so a slash behind the name of a file leads to an error. A
step up from the root stays there.
-/

import ConnectorSettings.Files
import ConnectorSettings.Files.PathName

namespace ConnectorSettings

inductive FileContent where
  | file (bytes : Utf8.Bytes)
  | directory
  deriving DecidableEq

/-- The names on the way from the root. -/
abbrev Place := List String

structure FileTree where
  entries : List (Place × FileContent)

namespace FileTree

/-- What stands at a place: the last entry for it, or a directory on the way to another entry. -/
def at? (tree : FileTree) (place : Place) : Option FileContent :=
  match tree.entries.reverse.find? fun entry => entry.1 == place with
  | some entry => some entry.2
  | none =>
    if place.isEmpty || tree.entries.any fun entry => place.isPrefixOf entry.1 then
      some .directory
    else none

/-- One step of a walk. -/
def step (tree : FileTree) (place : Place) (part : List Char) : Except ReadFailure Place :=
  match tree.at? place with
  | none => .error .notFound
  | some (.file _) => .error .notDirectory
  | some .directory =>
    if PathName.isIdle part then .ok place
    else if part == ['.', '.'] then .ok place.dropLast
    else
      let next := place ++ [String.ofList part]
      match tree.at? next with
      | some _ => .ok next
      | none => .error .notFound

/-- The place that a path means, seen from a directory. The empty path means nothing. -/
def resolve (tree : FileTree) (start : Place) (path : String) : Except ReadFailure Place :=
  if path.isEmpty then .error .notFound
  else
    let origin := if PathName.isAbsolute path then [] else start
    (PathName.parts path).foldlM tree.step origin

def read (tree : FileTree) (start : Place) (path : String) : Except ReadFailure String := do
  match tree.at? (← tree.resolve start path) with
  | some (.file bytes) => decodeFile bytes
  | some .directory => throw .isDirectory
  | none => throw .notFound

/-- The tree as seen from a directory. -/
def files (tree : FileTree) (start : Place) : Files where
  isPresent path := (tree.resolve start path).toOption.isSome
  read := tree.read start

end FileTree

end ConnectorSettings
