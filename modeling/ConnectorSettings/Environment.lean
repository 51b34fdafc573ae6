/-
This file holds the environment variables a program sees.

An environment is either the live one of the process or a captured copy, which can be changed
without touching the process. The two differ in two respects. The process environment has no
variable whose name is empty or contains an equals sign, so a live environment never finds one,
while a captured copy finds whatever name was put into it. And a copy is a map, which has one value
at a name: of several variables of one name a live environment finds the first, and a copy of it
holds the last.

A variable holds bytes. Looking one up therefore has three answers, since bytes that are no text
are neither a value nor an absence.
-/

import ConnectorSettings.Entries
import ConnectorSettings.Text.Utf8

namespace ConnectorSettings

/-- Named byte values. -/
abbrev Variables := List (String × Utf8.Bytes)

/-- Variables written one after the other; a later one replaces an earlier one of its name. -/
def Variables.ofList (entries : List (String × Utf8.Bytes)) : Variables :=
  entries.foldl (fun written entry => Entries.write entry.1 entry.2 written) []

inductive Environment where
  /-- The variables of the process, in the order in which it was given them. -/
  | live (bindings : Variables)
  | captured (bindings : Variables)
  deriving DecidableEq

namespace Environment

/-- What looking a variable up finds. -/
inductive Reading where
  | present (value : String)
  | absent
  /-- The variable is set, to bytes that are no text. -/
  | undecodable (bytes : Utf8.Bytes)
  deriving DecidableEq

def empty : Environment := captured []

def ofList (entries : List (String × Utf8.Bytes)) : Environment :=
  captured (Variables.ofList entries)

/-- The variables as they stand now, collected into a map. -/
def snapshot : Environment → Variables
  | live bindings => Variables.ofList bindings
  | captured bindings => bindings

/-- Whether a process environment can hold a variable of this name. -/
def isProcessName (name : String) : Bool :=
  !name.isEmpty && !name.toList.contains '='

def bytes? : Environment → String → Option Utf8.Bytes
  | live bindings, name => if isProcessName name then Entries.lookup? name bindings else none
  | captured bindings, name => Entries.lookup? name bindings

def read (environment : Environment) (name : String) : Reading :=
  match environment.bytes? name with
  | none => .absent
  | some bytes =>
    match Utf8.decode? bytes with
    | some value => .present value
    | none => .undecodable bytes

theorem read_of_unset {environment : Environment} {name : String}
    (unset : environment.bytes? name = none) : environment.read name = .absent := by
  rw [read, unset]

def isSet (environment : Environment) (name : String) : Bool :=
  (environment.bytes? name).isSome

/-- A captured copy in which the variable has the given value. -/
def set (environment : Environment) (name : String) (value : Utf8.Bytes) : Environment :=
  captured (Entries.write name value environment.snapshot)

/-- A captured copy without the variable. -/
def unset (environment : Environment) (name : String) : Environment :=
  captured (Entries.erase name environment.snapshot)

end Environment

end ConnectorSettings
