/-
This file writes reports for a terminal: a heading, and a line for each setting with its value and
its origin. The names of the settings are padded to the longest of them, whose length is counted in
bytes.
-/

import ConnectorSettings.Report
import ConnectorSettings.Terminal

namespace ConnectorSettings

open Terminal

/-- The label of an origin and, where it has one, its name. -/
def Origin.describe (origin : Origin) : String :=
  match origin.name? with
  | some name => origin.label ++ " " ++ name
  | none => origin.label

namespace Report

/-- A value in its style; an empty value is shown as a pair of quotes. -/
def valueSegment : Option String → Segment
  | none => .styled .dimmed "unset"
  | some value => if value.isEmpty then .styled .dimmed "\"\"" else .styled .green value

/-- Where the value came from, or the key that would set it. -/
def Row.describeOrigin (row : Row) : String :=
  match row.origin with
  | some origin => origin.describe
  | none => row.key

def padded (width : Nat) (name : String) : String :=
  name.pushn ' ' (width - name.length)

theorem toList_padded (width : Nat) (name : String) :
    (padded width name).toList = name.toList ++ List.replicate (width - name.length) ' ' := by
  unfold padded
  induction width - name.length with
  | zero => exact (List.append_nil _).symm
  | succ missing inductionHypothesis =>
    show ((name.pushn ' ' missing).push ' ').toList = _
    rw [String.toList_push, inductionHypothesis, List.append_assoc, List.replicate_succ']

def Row.segments (width : Nat) (row : Row) : List Segment :=
  [.plain ("   " ++ padded width row.setting ++ "  "), valueSegment row.value, .plain "  ",
    .styled .dimmed ("(" ++ row.describeOrigin ++ ")"), .plain "\n"]

def scopeSegments (report : Report) : List Segment :=
  match report.scope with
  | some scope => [.plain (report.connector.scopeLabel ++ " "), .styled .bold scope]
  | none => [.plain "global"]

def heading (report : Report) : List Segment :=
  [.plain " ", .styled .bold report.connector.name, .plain " ("] ++ report.scopeSegments ++
    [.plain ")\n\n"]

/-- The length in bytes of the longest name. -/
def nameWidth (report : Report) : Nat :=
  (report.rows.map fun row => row.setting.utf8ByteSize).foldl max 0

def segments (report : Report) : List Segment :=
  report.heading ++ report.rows.flatMap fun row => row.segments report.nameWidth

end Report

end ConnectorSettings
