/-
This file proves when a report in a terminal has one line for each setting.

The writer ends its heading, an empty line and every row with a line break, and puts none anywhere
else. But it shows texts that come from outside, the scope, the values and the keys or variables
they came from, and it shows them as they are. So every line break in one of these is one more line,
and counting the line breaks of the whole text tells whether there are any: the report has a line
for each setting exactly where no text that it shows is broken itself.
-/

import ConnectorSettings.Proofs.JsonReport
import ConnectorSettings.Properties

namespace ConnectorSettings

namespace Text

/-! ### Texts in lines -/

/-- The text is made of these lines, each of which is ended by a line break. -/
structure InLines (text : List Char) (lines : List (List Char)) : Prop where
  ended : text = lines.flatMap fun line => line ++ ['\n']
  unbroken : ∀ line ∈ lines, '\n' ∉ line

/-- The line breaks are those behind the pieces and those inside of them. -/
theorem count_ended (pieces : List (List Char)) :
    (pieces.flatMap fun piece => piece ++ ['\n']).count '\n' =
      pieces.length + pieces.flatten.count '\n' := by
  induction pieces with
  | nil => rfl
  | cons piece rest inductionHypothesis =>
    simp only [List.flatMap_cons, List.flatten_cons, List.count_append, List.count_singleton_self,
      List.length_cons, inductionHypothesis]
    omega

theorem count_flatten_eq_zero_iff {pieces : List (List Char)} :
    pieces.flatten.count '\n' = 0 ↔ ∀ piece ∈ pieces, '\n' ∉ piece := by
  rw [List.count_eq_zero, List.mem_flatten]
  exact ⟨fun none piece member broken => none ⟨piece, member, broken⟩,
    fun unbroken ⟨piece, member, broken⟩ => unbroken piece member broken⟩

/-- Pieces of a text that has as many lines are not broken. -/
theorem InLines.unbroken_of_length {pieces lines : List (List Char)}
    (inLines : InLines (pieces.flatMap fun piece => piece ++ ['\n']) lines)
    (asMany : lines.length = pieces.length) : ∀ piece ∈ pieces, '\n' ∉ piece := by
  have counted := congrArg (List.count '\n') inLines.ended
  rw [count_ended, count_ended, count_flatten_eq_zero_iff.mpr inLines.unbroken, asMany] at counted
  exact count_flatten_eq_zero_iff.mp (by omega)

end Text

namespace Report

open Terminal

/-! ### The text of a report -/

/-- What stands in the line of a row. -/
def Row.line (width : Nat) (row : Row) : List Char :=
  ("   " ++ padded width row.setting ++ "  ").toList ++ (valueSegment row.value).text.toList ++
    ("  " ++ ("(" ++ row.describeOrigin ++ ")")).toList

/-- What stands in the heading. -/
def headingLine (report : Report) : List Char :=
  (" " ++ report.connector.name ++ " (").toList ++
    (report.scopeSegments.flatMap fun segment => segment.text.toList) ++ [')']

theorem text_row (width : Nat) (row : Row) :
    ((row.segments width).flatMap fun segment => segment.text.toList) =
      row.line width ++ ['\n'] := by
  have ended : "\n".toList = ['\n'] := by decide
  simp [Row.segments, Row.line, Segment.text, ended]

theorem text_heading (report : Report) :
    (report.heading.flatMap fun segment => segment.text.toList) =
      report.headingLine ++ ['\n'] ++ ['\n'] := by
  have ended : ")\n\n".toList = [')', '\n', '\n'] := by decide
  simp [heading, headingLine, Segment.text, ended]

/-- Without colour, the text is the heading, an empty line and the rows, with line breaks behind. -/
theorem text_report (report : Report) :
    (report.render .terminal false).toList =
      (report.headingLine :: [] :: report.rows.map (Row.line report.nameWidth)).flatMap
        fun line => line ++ ['\n'] := by
  show (Terminal.render false report.segments).toList = _
  simp only [toList_render, Segment.write_false, segments, List.flatMap_append, text_heading,
    List.flatMap_assoc, text_row, List.flatMap_cons, List.flatMap_map, List.append_assoc,
    List.nil_append]

/-! ### One line for each setting -/

/-- The line begins with three spaces and the name of the setting, and ends with the origin in
brackets. -/
def Row.ShownBy (row : Row) (line : List Char) : Prop :=
  ∃ between, line = ("   " ++ row.setting).toList ++ between ++
    ("(" ++ row.describeOrigin ++ ")").toList

/-- Without colour, the report is a heading, an empty line and a line for each row in their
order. -/
def OneLineEach (report : Report) : Prop :=
  ∃ heading lines, Text.InLines (report.render .terminal false).toList (heading :: [] :: lines) ∧
    List.Forall₂ Row.ShownBy report.rows lines

/-- The texts from outside that a report shows. -/
def shownTexts (report : Report) : List String :=
  report.scope.toList ++ report.rows.flatMap fun row => row.value.toList ++ [row.describeOrigin]

theorem Row.shownBy_line (width : Nat) (row : Row) : row.ShownBy (row.line width) := by
  refine ⟨List.replicate (width - row.setting.length) ' ' ++ "  ".toList ++
    (valueSegment row.value).text.toList ++ "  ".toList, ?_⟩
  simp only [Row.line, String.toList_append, toList_padded, List.append_assoc]

/-- The report has one line for each row exactly where none of the lines that are written is broken:
a broken one would be more than one line. -/
theorem oneLineEach_iff_unbroken (report : Report) :
    report.OneLineEach ↔
      ∀ line ∈ report.headingLine :: [] :: report.rows.map (Row.line report.nameWidth),
        '\n' ∉ line := by
  constructor
  · rintro ⟨heading, lines, inLines, shown⟩
    rw [text_report] at inLines
    refine inLines.unbroken_of_length ?_
    simp only [List.length_cons, List.length_map, shown.length_eq]
  · intro unbroken
    refine ⟨report.headingLine, report.rows.map (Row.line report.nameWidth),
      ⟨text_report report, unbroken⟩, ?_⟩
    rw [List.forall₂_map_right_iff, List.forall₂_same]
    exact fun row _ => row.shownBy_line report.nameWidth

/-! ### What can break a line -/

theorem unbroken_value_iff (value : Option String) :
    '\n' ∉ (valueSegment value).text.toList ↔ ∀ text ∈ value, '\n' ∉ text.toList := by
  cases value with
  | none => exact ⟨fun _ => nofun, fun _ => by decide⟩
  | some text =>
    simp only [Option.mem_some_iff, forall_eq']
    by_cases empty : text.isEmpty
    · obtain rfl := String.isEmpty_iff.mp empty
      decide
    · simp only [valueSegment, if_neg empty, Segment.text]

theorem Row.unbroken_line_iff {width : Nat} {row : Row} (name : '\n' ∉ row.setting.toList) :
    '\n' ∉ row.line width ↔
      (∀ text ∈ row.value, '\n' ∉ text.toList) ∧ '\n' ∉ row.describeOrigin.toList := by
  have padding : '\n' ∉ List.replicate (width - row.setting.length) ' ' := fun member =>
    absurd (List.eq_of_mem_replicate member) (by decide)
  simp only [Row.line, String.toList_append, toList_padded, List.mem_append, not_or,
    unbroken_value_iff]
  have signs : '\n' ∉ "   ".toList ∧ '\n' ∉ "  ".toList ∧ '\n' ∉ "(".toList ∧
      '\n' ∉ ")".toList := by decide
  tauto

theorem unbroken_headingLine_iff (report : Report) :
    '\n' ∉ report.headingLine ↔ ∀ text ∈ report.scope, '\n' ∉ text.toList := by
  have name : '\n' ∉ report.connector.name.toList := by
    cases report.connector <;> decide
  have label : '\n' ∉ report.connector.scopeLabel.toList := by
    cases report.connector <;> decide
  rw [headingLine, List.mem_append, List.mem_append, scopeSegments]
  cases report.scope with
  | none => simp [Segment.text, name]
  | some scope => simp [Segment.text, name, label]

/-- Where no name of a setting is broken, only the texts from outside can break a line. -/
theorem oneLineEach_iff {report : Report}
    (names : ∀ row ∈ report.rows, '\n' ∉ row.setting.toList) :
    report.OneLineEach ↔ ∀ text ∈ report.shownTexts, '\n' ∉ text.toList := by
  have rows : (∀ row ∈ report.rows, '\n' ∉ row.line report.nameWidth) ↔
      ∀ row ∈ report.rows, ∀ text ∈ row.value.toList ++ [row.describeOrigin],
        '\n' ∉ text.toList := by
    refine forall₂_congr fun row member => ?_
    rw [Row.unbroken_line_iff (names row member), List.forall_mem_append, List.forall_mem_singleton]
    simp only [Option.mem_toList, Option.mem_def]
  rw [oneLineEach_iff_unbroken, List.forall_mem_cons, List.forall_mem_cons, List.forall_mem_map,
    unbroken_headingLine_iff, rows, shownTexts, List.forall_mem_append, List.forall_mem_flatMap,
    and_iff_right List.not_mem_nil]
  simp only [Option.mem_toList, Option.mem_def]

end Report

namespace Connector

section

variable {connector : Connector} {map : SettingsMap} {environment : Environment}
  {scope : Option String} {aliases : List String} {showSecrets : Bool} {report : Report}

/-- The names of settings come from a table, where none is broken. -/
theorem unbroken_names
    (built : Report.ofView connector
      (((connector.view map environment).withScope scope).withAliases aliases) showSecrets =
        .ok report) : ∀ row ∈ report.rows, '\n' ∉ row.setting.toList := by
  have listed : ∀ setting ∈ connector.settings, '\n' ∉ setting.name.toList := by
    cases connector <;> decide
  intro row member
  have named : row.setting ∈ connector.settings.map Setting.name :=
    (Report.fields_of_ofView built).2.2 ▸ List.mem_map_of_mem member
  obtain ⟨setting, among, same⟩ := List.mem_map.mp named
  exact same ▸ listed setting among

end

/-- A report that is built has a row for each setting, in the order of the table. In a terminal it
has a line for each of them exactly as long as no text that it shows has a line break in it. -/
theorem report_lines_iff (connector : Connector) (map : SettingsMap) (environment : Environment)
    (scope : Option String) (aliases : List String) (showSecrets : Bool) (report : Report)
    (built : Report.ofView connector
      (((connector.view map environment).withScope scope).withAliases aliases) showSecrets =
        .ok report) :
    report.rows.map Report.Row.setting = connector.settings.map Setting.name ∧
      (report.OneLineEach ↔ ∀ text ∈ report.shownTexts, '\n' ∉ text.toList) :=
  ⟨(Report.fields_of_ofView built).2.2, Report.oneLineEach_iff (unbroken_names built)⟩

/-- A scope, an ecosystem name and values that are strange, but not broken. -/
theorem report_lines_iff_strange_texts :
    let scope := "(default)"
    let map := SettingsMap.ofList
      [("fs.azure.account.auth.type.(default).dfs.core.windows.net", "a\tb\u2028c"),
        ("  .fs.azure.account.oauth2.client.endpoint", "")]
    let view := ((Connector.abfs.view map .empty).withScope (some scope)).withAliases ["  ."]
    ∃ report, Report.ofView .abfs view false = .ok report ∧
      report.rows.map Report.Row.value = [some "a\tb\u2028c", none, none, none, none,
        some "", some "core.windows.net", some "30"] ∧
      report.OneLineEach := by
  intro scope map view
  have passes : (fun report => (report.rows.map Report.Row.value,
        decide (∀ text ∈ report.shownTexts, '\n' ∉ text.toList))) <$>
      Report.ofView .abfs view false =
      .ok ([some "a\tb\u2028c", none, none, none, none, some "", some "core.windows.net",
        some "30"], true) := by decide +kernel
  obtain ⟨report, built, shown⟩ := map_eq_ok_iff.mp passes
  obtain ⟨values, unbroken⟩ := Prod.mk.inj shown
  exact ⟨report, built, values, (report_lines_iff .abfs map .empty (some scope) ["  ."] false report
    built).2.mpr (of_decide_eq_true unbroken)⟩

/-- A line break is written as an escape in a file. In the report of what has been read from there
it stands as itself, and what is behind it begins a new line. -/
theorem report_value_broken :
    let map := SettingsMap.ofList [("fs.s3a.endpoint", "a\nb")]
    Properties.parse "fs.s3a.endpoint=a\\nb" = .ok map ∧
      ∃ report, Report.ofView .s3 (Connector.s3.view map .empty) false = .ok report ∧
        ¬ report.OneLineEach := by
  intro map
  have passes : (fun report => decide ("a\nb" ∈ report.shownTexts)) <$>
      Report.ofView .s3 (Connector.s3.view map .empty) false = .ok true := by decide +kernel
  obtain ⟨report, built, shown⟩ := map_eq_ok_iff.mp passes
  have seen : Report.ofView .s3
      (((Connector.s3.view map .empty).withScope none).withAliases defaultAliases) false =
        .ok report := built
  refine ⟨by decide, report, built, fun oneLine => ?_⟩
  exact (Report.oneLineEach_iff (unbroken_names seen)).mp oneLine "a\nb" (of_decide_eq_true shown)
    (by decide)

end Connector

end ConnectorSettings
