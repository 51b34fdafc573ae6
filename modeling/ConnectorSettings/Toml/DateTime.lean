/-
This file holds the dates and times of TOML and writes them in their normal form.

A moment is a date, a time of day, both, or both with an offset from universal time. The normal form
separates date and time by a T, gives as many digits of a second's fraction as are not trailing
zeros, and writes an offset in hours and minutes unless it is the letter Z.
-/

import ConnectorSettings.Text.Digit

namespace ConnectorSettings

namespace Toml

structure Date where
  year : Nat
  month : Nat
  day : Nat
  deriving DecidableEq, Repr

structure Time where
  hour : Nat
  minute : Nat
  second : Nat
  nanosecond : Nat
  deriving DecidableEq, Repr

inductive Offset where
  | universal
  | minutes (count : Int)
  deriving DecidableEq, Repr

inductive DateTime where
  | date (date : Date)
  | time (time : Time)
  | both (date : Date) (time : Time)
  | offset (date : Date) (time : Time) (offset : Offset)
  deriving DecidableEq, Repr

namespace Date

def isLeapYear (year : Nat) : Bool :=
  year % 4 == 0 && (year % 100 != 0 || year % 400 == 0)

def daysIn (year month : Nat) : Nat :=
  if month = 2 then (if isLeapYear year then 29 else 28)
  else if month = 4 ∨ month = 6 ∨ month = 9 ∨ month = 11 then 30
  else 31

def isValid (date : Date) : Bool :=
  1 ≤ date.month && date.month ≤ 12 && 1 ≤ date.day && date.day ≤ daysIn date.year date.month

end Date

/-- How far the clock goes: the last hour of a day, the most minutes that an offset has beside its
hours, and the longest offset, in minutes. -/
structure ClockRange where
  lastHour : Nat
  lastOffsetMinute : Nat
  longestOffset : Nat
  deriving DecidableEq, Repr

namespace ClockRange

/-- The range of a moment that is written outright. -/
def plain : ClockRange := ⟨23, 59, 23 * 60 + 59⟩

/-- The range of a moment inside a text, which may also count to the end of the day. -/
def quoted : ClockRange := ⟨24, 99, 24 * 60⟩

end ClockRange

namespace Time

/-- A sixtieth second is allowed, for leap seconds. -/
def isValid (range : ClockRange) (time : Time) : Bool :=
  time.hour ≤ range.lastHour && time.minute ≤ 59 && time.second ≤ 60

end Time

/-! ### The normal form -/

/-- A number with zeros in front up to a width. -/
def fixed (width number : Nat) : List Char :=
  Text.zeroPadded width (Text.decimal number)

def Date.write (date : Date) : List Char :=
  fixed 4 date.year ++ ['-'] ++ fixed 2 date.month ++ ['-'] ++ fixed 2 date.day

def Time.write (time : Time) : List Char :=
  fixed 2 time.hour ++ [':'] ++ fixed 2 time.minute ++ [':'] ++ fixed 2 time.second ++
    if time.nanosecond = 0 then []
    else ['.'] ++ ((fixed 9 time.nanosecond).reverse.dropWhile (· == '0')).reverse

def Offset.write : Offset → List Char
  | universal => ['Z']
  | minutes count =>
    [if count < 0 then '-' else '+'] ++ fixed 2 (count.natAbs / 60) ++ [':'] ++
      fixed 2 (count.natAbs % 60)

namespace DateTime

def write : DateTime → List Char
  | .date day => day.write
  | .time clock => clock.write
  | .both day clock => day.write ++ ['T'] ++ clock.write
  | .offset day clock shift => day.write ++ ['T'] ++ clock.write ++ shift.write

def text (moment : DateTime) : String :=
  String.ofList moment.write

end DateTime

end Toml

end ConnectorSettings
