/-
This file reads the moments of TOML.

A moment stands in a document outright, or inside a text that is nothing else. Both have one
grammar, in which the range of the clock is open: a moment inside a text may name the hour
twenty-four and an offset of a whole day. Of the fraction of a second nine digits are kept.
-/

import ConnectorSettings.Toml.DateTime
import ConnectorSettings.Toml.Scan

namespace ConnectorSettings

namespace Toml

/-- A number of exactly `count` digits. -/
def fixedNumber (count : Nat) : Scan Nat := do
  return Text.decimalNumber (← Scan.exactly count Text.isDigit)

def date : Scan Date := do
  let year ← fixedNumber 4
  Scan.char '-'
  let month ← fixedNumber 2
  Scan.char '-'
  let day ← fixedNumber 2
  let found : Date := ⟨year, month, day⟩
  guard found.isValid
  return found

/-- The fraction of a second in nanoseconds; digits beyond the ninth are dropped. -/
def secondFraction : Scan Nat := do
  Scan.char '.'
  let digits ← Scan.some? Text.isDigit
  let kept := digits.take 9
  return Text.decimalNumber (kept ++ List.replicate (9 - kept.length) '0')

def time (range : ClockRange) : Scan Time := do
  let hour ← fixedNumber 2
  Scan.char ':'
  let minute ← fixedNumber 2
  Scan.char ':'
  let second ← fixedNumber 2
  let nanosecond ← Scan.optional secondFraction
  let found : Time := ⟨hour, minute, second, nanosecond.getD 0⟩
  guard (found.isValid range)
  return found

def universalOffset : Scan Offset := do
  let _ ← Scan.satisfying fun char => char == 'Z' || char == 'z'
  return .universal

def numericOffset (range : ClockRange) : Scan Offset := do
  let mark ← Scan.satisfying fun char => char == '+' || char == '-'
  let hour ← fixedNumber 2
  Scan.char ':'
  let minute ← fixedNumber 2
  let count := hour * 60 + minute
  guard (minute ≤ range.lastOffsetMinute ∧ count ≤ range.longestOffset)
  return .minutes (if mark == '-' then -(count : Int) else count)

/-- The time of a moment that begins with a date. -/
def timeOfDate (range : ClockRange) : Scan (Time × Option Offset) := do
  let _ ← Scan.satisfying fun char => char == 'T' || char == 't' || char == ' '
  let clock ← time range
  let offset ← Scan.optional (universalOffset <|> numericOffset range)
  return (clock, offset)

def datedMoment (range : ClockRange) : Scan DateTime := do
  let day ← date
  match ← Scan.optional (timeOfDate range) with
  | some (clock, some offset) => return .offset day clock offset
  | some (clock, none) => return .both day clock
  | none => return .date day

def moment (range : ClockRange) : Scan DateTime :=
  datedMoment range <|> (do return .time (← time range))

/-- The moment that a text consists of. -/
def DateTime.ofText? (text : String) : Option DateTime :=
  match (moment .quoted).from? text.toList with
  | some (found, []) => some found
  | _ => none

end Toml

end ConnectorSettings
