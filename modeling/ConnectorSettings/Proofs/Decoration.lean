/-
This file proves that colour is pure decoration: a coloured text without the sequences that colour
adds is the text without colour, and every style is ended before anything else begins.

Both hold of texts that are made of segments, as long as no segment has an escape character of its
own. Then every escape begins a sequence of the writer's, a style is never opened again behind a
reset inside its text, and the two facts follow segment by segment. It remains that the segments of
reports and key tables hold such texts, where the strings that they are made of do.
-/

import ConnectorSettings.OutputFormat
import Mathlib.Data.List.Basic

namespace ConnectorSettings

namespace Terminal

/-! ### Decoration -/

/-- The text without the sequences that open a style or end it. -/
def undecorated : List Char → List Char
  | '\x1b' :: '[' :: '1' :: 'm' :: text => undecorated text
  | '\x1b' :: '[' :: '2' :: 'm' :: text => undecorated text
  | '\x1b' :: '[' :: '3' :: '2' :: 'm' :: text => undecorated text
  | '\x1b' :: '[' :: '3' :: '6' :: 'm' :: text => undecorated text
  | '\x1b' :: '[' :: '0' :: 'm' :: text => undecorated text
  | char :: text => char :: undecorated text
  | [] => []

/-- What follows the opening of a style is a text without escapes and the reset. -/
def IsEnded (text : List Char) : Prop :=
  ∃ inside behind, text = inside ++ reset ++ behind ∧ '\x1b' ∉ inside

/-- Every style that is opened in the text is ended before the next escape. -/
def EndsStyles (text : List Char) : Prop :=
  ∀ (style : Style) before after, text = before ++ style.opening ++ after → IsEnded after

/-- One text is the other in colour. -/
structure Decorates (colored plain : String) : Prop where
  same : undecorated colored.toList = plain.toList
  ends : EndsStyles colored.toList

/-! ### The pieces of a coloured text -/

theorem undecorated_append {text : List Char} (plain : '\x1b' ∉ text) (rest : List Char) :
    undecorated (text ++ rest) = text ++ undecorated rest := by
  induction text with
  | nil => rfl
  | cons char text inductionHypothesis =>
    obtain ⟨other, plain⟩ := not_or.mp (mt List.mem_cons.mpr plain)
    rw [List.cons_append, List.cons_append, ← inductionHypothesis plain]
    simp [undecorated, Ne.symm other]

theorem undecorated_opening (style : Style) (rest : List Char) :
    undecorated (style.opening ++ rest) = undecorated rest := by
  cases style <;> simp [Style.opening, undecorated]

theorem undecorated_reset (rest : List Char) : undecorated (reset ++ rest) = undecorated rest := by
  simp [reset, undecorated]

/-- A style is opened again only behind an escape in its text. -/
theorem reopened_of_plain (opening : List Char) {text : List Char} (plain : '\x1b' ∉ text) :
    reopened opening text = text := by
  induction text with
  | nil => rfl
  | cons char text inductionHypothesis =>
    obtain ⟨other, plain⟩ := not_or.mp (mt List.mem_cons.mpr plain)
    simp [reopened, Ne.symm other, inductionHypothesis plain]

theorem painted_append {style : Style} {text : List Char} (plain : '\x1b' ∉ text)
    (rest : List Char) :
    painted style text ++ rest = style.opening ++ (text ++ (reset ++ rest)) := by
  rw [painted, reopened_of_plain _ plain, List.append_assoc, List.append_assoc]

/-- Only what begins with an opening has to be ended, and the rest has to end its own styles. -/
theorem endsStyles_cons {char : Char} {text : List Char}
    (first : ∀ (style : Style) after, char :: text = style.opening ++ after → IsEnded after)
    (rest : EndsStyles text) : EndsStyles (char :: text) := by
  intro style before after split
  cases before with
  | nil => exact first style after split
  | cons _ before =>
    obtain ⟨-, split⟩ := List.cons.inj split
    exact rest style before after split

theorem EndsStyles.append_plain {text rest : List Char} (ends : EndsStyles rest)
    (plain : '\x1b' ∉ text) : EndsStyles (text ++ rest) := by
  induction text with
  | nil => exact ends
  | cons char text inductionHypothesis =>
    obtain ⟨other, plain⟩ := not_or.mp (mt List.mem_cons.mpr plain)
    refine endsStyles_cons (fun style after split => ?_) (inductionHypothesis plain)
    cases style <;> exact absurd (List.cons.inj split).1.symm other

theorem EndsStyles.append_reset {rest : List Char} (ends : EndsStyles rest) :
    EndsStyles (reset ++ rest) := by
  have behind : EndsStyles (['[', '0', 'm'] ++ rest) := ends.append_plain (by decide)
  refine endsStyles_cons (fun style after split => ?_) behind
  cases style <;> simp [Style.opening] at split

/-- Two openings with something behind them are the same opening with the same behind it. -/
theorem eq_of_opening_append {left right : Style} {rest after : List Char}
    (same : left.opening ++ rest = right.opening ++ after) : rest = after := by
  cases left <;> cases right <;> simp [Style.opening] at same
  all_goals exact same

theorem EndsStyles.append_painted {inside rest : List Char} (ends : EndsStyles rest)
    (style : Style) (plain : '\x1b' ∉ inside) : EndsStyles (painted style inside ++ rest) := by
  rw [painted_append plain]
  have closed : EndsStyles (inside ++ (reset ++ rest)) := ends.append_reset.append_plain plain
  have ended : IsEnded (inside ++ (reset ++ rest)) :=
    ⟨inside, rest, (List.append_assoc _ _ _).symm, plain⟩
  obtain ⟨parameters, opening, noEscape⟩ : ∃ parameters,
      style.opening = '\x1b' :: parameters ∧ '\x1b' ∉ parameters := by
    cases style <;> exact ⟨_, rfl, by decide⟩
  have behind := closed.append_plain noEscape
  rw [opening, List.cons_append]
  refine endsStyles_cons (fun other after split => ?_) behind
  rw [← List.cons_append, ← opening] at split
  exact eq_of_opening_append split ▸ ended

/-! ### Segments -/

/-- The text has no escape in it. -/
def Unescaped (text : String) : Prop :=
  '\x1b' ∉ text.toList

instance : DecidablePred Unescaped := fun text => inferInstanceAs (Decidable (_ ∉ text.toList))

theorem Unescaped.append {left right : String} (first : Unescaped left) (second : Unescaped right) :
    Unescaped (left ++ right) := by
  rw [Unescaped, String.toList_append, List.mem_append, not_or]
  exact ⟨first, second⟩

theorem undecorated_write {segment : Segment} (plain : Unescaped segment.text)
    (rest : List Char) :
    undecorated (segment.write true ++ rest) = segment.write false ++ undecorated rest := by
  cases segment with
  | plain text => exact undecorated_append plain rest
  | styled style text =>
    have plain : '\x1b' ∉ text.toList := plain
    show undecorated (painted style text.toList ++ rest) = text.toList ++ undecorated rest
    rw [painted_append plain, undecorated_opening, undecorated_append plain, undecorated_reset]

theorem EndsStyles.append_write {segment : Segment} {rest : List Char} (ends : EndsStyles rest)
    (plain : Unescaped segment.text) : EndsStyles (segment.write true ++ rest) := by
  cases segment with
  | plain text => exact ends.append_plain plain
  | styled style text => exact ends.append_painted style plain

/-- Where no segment has an escape of its own, colour is decoration. -/
theorem decorates_of_unescaped {segments : List Segment}
    (plain : ∀ segment ∈ segments, Unescaped segment.text) :
    Decorates (render true segments) (render false segments) := by
  constructor
  · rw [toList_render, toList_render]
    induction segments with
    | nil => rfl
    | cons segment rest inductionHypothesis =>
      obtain ⟨first, others⟩ := List.forall_mem_cons.mp plain
      rw [List.flatMap_cons, List.flatMap_cons, undecorated_write first, inductionHypothesis others]
  · rw [toList_render]
    induction segments with
    | nil =>
      intro style before after split
      cases style <;> simp [Style.opening] at split
    | cons segment rest inductionHypothesis =>
      obtain ⟨first, others⟩ := List.forall_mem_cons.mp plain
      exact (inductionHypothesis others).append_write first

end Terminal

open Terminal (Segment Unescaped)

/-! ### Reports -/

theorem Origin.unescaped_describe {origin : Origin} (name : ∀ text ∈ origin.name?, Unescaped text) :
    Unescaped origin.describe := by
  have label : Unescaped origin.label := by
    cases origin <;> simp only [label] <;> decide
  unfold describe
  cases named : origin.name? with
  | none => exact label
  | some text => exact (label.append (by decide)).append (name text named)

namespace Report

/-- The strings of a row. -/
def Row.texts (row : Row) : List String :=
  [row.setting, row.key] ++ row.value.toList ++ (row.origin.bind Origin.name?).toList

/-- The strings of a report. -/
def texts (report : Report) : List String :=
  report.scope.toList ++ report.rows.flatMap Row.texts

theorem unescaped_padded (width : Nat) {name : String} (plain : Unescaped name) :
    Unescaped (padded width name) := by
  rw [Unescaped, toList_padded, List.mem_append, not_or]
  refine ⟨plain, fun member => ?_⟩
  exact absurd (List.eq_of_mem_replicate member) (by decide)

theorem unescaped_valueSegment {value : Option String} (plain : ∀ text ∈ value, Unescaped text) :
    Unescaped (valueSegment value).text := by
  cases value with
  | none => decide
  | some text =>
    by_cases empty : text.isEmpty
    · simp only [valueSegment, if_pos empty, Segment.text]
      decide
    · simp only [valueSegment, if_neg empty, Segment.text]
      exact plain text rfl

theorem Row.unescaped_segments {row : Row} (plain : ∀ text ∈ row.texts, Unescaped text)
    (width : Nat) : ∀ segment ∈ row.segments width, Unescaped segment.text := by
  simp only [texts, List.forall_mem_append, List.forall_mem_cons, Option.mem_toList] at plain
  obtain ⟨⟨⟨setting, key, -⟩, value⟩, name⟩ := plain
  have origin : Unescaped row.describeOrigin := by
    unfold describeOrigin
    cases given : row.origin with
    | none => exact key
    | some origin =>
      refine origin.unescaped_describe fun text named => name text ?_
      rw [given]
      exact named
  simp only [segments, List.forall_mem_cons, Segment.text]
  refine ⟨?_, unescaped_valueSegment value, by decide, ?_, by decide, nofun⟩
  · exact (Unescaped.append (by decide) (unescaped_padded width setting)).append (by decide)
  · exact (Unescaped.append (by decide) origin).append (by decide)

theorem unescaped_heading {report : Report} (plain : ∀ text ∈ report.scope, Unescaped text) :
    ∀ segment ∈ report.heading, Unescaped segment.text := by
  have name : Unescaped report.connector.name := by
    cases report.connector <;> decide
  have label : Unescaped report.connector.scopeLabel := by
    cases report.connector <;> decide
  have scope : ∀ segment ∈ report.scopeSegments, Unescaped segment.text := by
    unfold scopeSegments
    cases given : report.scope with
    | none =>
      simp only [List.forall_mem_singleton, Segment.text]
      decide
    | some text =>
      simp only [List.forall_mem_cons, Segment.text]
      exact ⟨label.append (by decide), plain text given, nofun⟩
  simp only [heading, List.forall_mem_append, List.forall_mem_cons, Segment.text]
  exact ⟨⟨⟨by decide, name, by decide, nofun⟩, scope⟩, by decide, nofun⟩

theorem unescaped_segments {report : Report} (plain : ∀ text ∈ report.texts, Unescaped text) :
    ∀ segment ∈ report.segments, Unescaped segment.text := by
  simp only [texts, List.forall_mem_append, Option.mem_toList, List.forall_mem_flatMap] at plain
  simp only [segments, List.forall_mem_append, List.forall_mem_flatMap]
  exact ⟨unescaped_heading plain.1, fun row member =>
    row.unescaped_segments (plain.2 row member) report.nameWidth⟩

end Report

/-! ### Key tables -/

namespace Text

theorem escape_not_mem_hexadecimal (number : Nat) : '\x1b' ∉ hexadecimal number := by
  have digit : ∀ value : Fin 16, '\x1b' ≠ digitOf value.val := by decide
  induction number using hexadecimal.induct with
  | case1 number small =>
    rw [hexadecimal, if_pos small, List.mem_singleton]
    exact digit ⟨number, small⟩
  | case2 number large inductionHypothesis =>
    rw [hexadecimal, if_neg large, List.mem_append, List.mem_singleton, not_or]
    exact ⟨inductionHypothesis, digit ⟨number % 16, Nat.mod_lt number (by decide)⟩⟩

theorem escape_not_mem_quotedChar {char : Char} (other : char ≠ '\x1b') :
    '\x1b' ∉ quotedChar char := by
  unfold quotedChar
  split
  · decide
  split
  · decide
  split
  · decide
  split
  · decide
  split
  · decide
  split
  · decide
  split
  · rw [List.mem_append, List.mem_append, not_or, not_or]
    exact ⟨⟨by decide, escape_not_mem_hexadecimal char.toNat⟩, by decide⟩
  · rw [List.mem_singleton]
    exact Ne.symm other

theorem unescaped_quoted {text : String} (plain : Unescaped text) : Unescaped (quoted text) := by
  rw [Unescaped, quoted, String.toList_ofList, List.mem_append, List.mem_append, not_or, not_or]
  refine ⟨⟨by decide, fun member => ?_⟩, by decide⟩
  obtain ⟨char, inside, escape⟩ := List.mem_flatMap.mp member
  have other : char ≠ '\x1b' := by
    rintro rfl
    exact plain inside
  exact escape_not_mem_quotedChar other escape

end Text

namespace KeyTable

/-- The strings of a row. -/
def Row.texts (row : Row) : List String :=
  [row.setting, row.key, row.scopedKey] ++ row.fallback.toList ++ row.variableName.toList

/-- The strings of a key table. -/
def texts (table : KeyTable) : List String :=
  table.rows.flatMap Row.texts

theorem unescaped_line {label text : String} (known : Unescaped label) (plain : Unescaped text) :
    ∀ segment ∈ line label text, Unescaped segment.text := by
  simp only [line, List.forall_mem_cons, Segment.text]
  exact ⟨by decide, known, (Unescaped.append (by decide) plain).append (by decide), nofun⟩

theorem unescaped_optionalLine {label : String} {given : Option String} (known : Unescaped label)
    (plain : ∀ text ∈ given, Unescaped text) :
    ∀ segment ∈ optionalLine label given, Unescaped segment.text := by
  cases given with
  | none => exact nofun
  | some text => exact unescaped_line known (plain text rfl)

theorem Row.unescaped_segments {row : Row} (plain : ∀ text ∈ row.texts, Unescaped text) :
    ∀ segment ∈ row.segments, Unescaped segment.text := by
  simp only [texts, List.forall_mem_append, List.forall_mem_cons, Option.mem_toList] at plain
  obtain ⟨⟨⟨setting, key, scopedKey, -⟩, fallback⟩, variableName⟩ := plain
  have quoted : ∀ text ∈ row.fallback.map Text.quoted, Unescaped text := by
    intro text member
    obtain ⟨value, given, rfl⟩ := Option.map_eq_some_iff.mp member
    exact Text.unescaped_quoted (fallback value given)
  simp only [segments, List.forall_mem_append, List.forall_mem_cons, Segment.text]
  exact ⟨⟨⟨⟨⟨by decide, setting, by decide, nofun⟩, unescaped_line (by decide) key⟩,
    unescaped_line (by decide) scopedKey⟩, unescaped_optionalLine (by decide) quoted⟩,
    unescaped_optionalLine (by decide) variableName⟩

theorem unescaped_segments {table : KeyTable} (plain : ∀ text ∈ table.texts, Unescaped text) :
    ∀ segment ∈ table.segments, Unescaped segment.text := by
  have name : Unescaped table.connector.name := by
    cases table.connector <;> decide
  simp only [texts, List.forall_mem_flatMap] at plain
  simp only [segments, List.forall_mem_append, List.forall_mem_cons, List.forall_mem_flatMap,
    Segment.text]
  exact ⟨⟨by decide, name, by decide, nofun⟩, fun row member =>
    row.unescaped_segments (plain row member)⟩

end KeyTable

/-- Colour decorates every report and every key table without escapes in their strings: the coloured
text without the added sequences is the text without colour, and no style is opened within
another. -/
theorem color_decorates :
    (∀ report : Report, (∀ text ∈ report.texts, Unescaped text) →
      Terminal.Decorates (report.render .terminal true) (report.render .terminal false)) ∧
    ∀ table : KeyTable, (∀ text ∈ table.texts, Unescaped text) →
      Terminal.Decorates (table.render .terminal true) (table.render .terminal false) :=
  ⟨fun _ plain => Terminal.decorates_of_unescaped (Report.unescaped_segments plain),
    fun _ plain => Terminal.decorates_of_unescaped (KeyTable.unescaped_segments plain)⟩

/-- An empty value, one that looks like a sequence without its escape, and a missing one; a fallback
with a quote and no variable. -/
theorem color_decorates_brackets :
    let report : Report := ⟨.s3, some "[1m", [⟨"a", "k", some "", some .fallback, false⟩,
      ⟨"é", "k", some "[0m", some (.environment "V"), true⟩, ⟨"c", "[32m", none, none, false⟩]⟩
    let table : KeyTable := ⟨.abfs, [⟨"a", "k", "[36m", some "\"", none⟩]⟩
    (Terminal.Decorates (report.render .terminal true) (report.render .terminal false) ∧
      report.render .terminal true ≠ report.render .terminal false) ∧
    Terminal.Decorates (table.render .terminal true) (table.render .terminal false) ∧
      table.render .terminal true ≠ table.render .terminal false := by
  intro report table
  exact ⟨⟨color_decorates.1 report (by decide), by decide +kernel⟩,
    color_decorates.2 table (by decide), by decide +kernel⟩

end ConnectorSettings
