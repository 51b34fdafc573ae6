/-
This file proves that reading properties text is compositional: behind a complete text any other can
follow, and the two are read as if they were two sources.

The first text that fails decides the error. If that is the later text, the error is the same but
for its line, which is counted from the beginning of the whole. If neither fails, the settings of
the later text are merged over those of the earlier, the order of the keys included. Comments and
blank lines between entries only move lines down, and an error is always that of the first malformed
entry, found where its first physical line is.
-/

import ConnectorSettings.Proofs.Lines
import ConnectorSettings.Proofs.Merging
import Mathlib.Data.List.TakeWhile

namespace ConnectorSettings

namespace Properties

/-! ### Entries -/

/-- How many lines a complete text takes. -/
def lineFeeds (text : String) : Nat :=
  text.toList.count '\n'

/-- The same error, reported further down in a longer text. -/
def Malformed.moved (distance : Nat) (malformed : Malformed) : Malformed :=
  ⟨malformed.number + distance, malformed.content⟩

/-- The same error, reported on another line. -/
def Malformed.renumbered (renumber : Nat → Nat) (malformed : Malformed) : Malformed :=
  ⟨renumber malformed.number, malformed.content⟩

theorem entryOf_renumbered (renumber : Nat → Nat) (line : LogicalLine) :
    entryOf (line.renumbered renumber) = (entryOf line).mapError (.renumbered renumber) := by
  unfold entryOf LogicalLine.renumbered
  dsimp only
  cases entry? line.text <;> rfl

/-- Entries do not depend on the numbers of their lines, their errors do. -/
theorem mapM_entryOf_renumbered (renumber : Nat → Nat) (lines : List LogicalLine) :
    (lines.map (.renumbered renumber)).mapM entryOf =
      (lines.mapM entryOf).mapError (.renumbered renumber) := by
  rw [List.mapM_map, ← mapM_mapError]
  exact mapM_congr fun line _ => entryOf_renumbered renumber line

theorem entries_append {front : String} (closed : Closed front.toList) (back : String) :
    entries (front ++ back) = do
      let before ← entries front
      let after ← (entries back).mapError (.moved (lineFeeds front))
      return before ++ after := by
  unfold entries
  have later := mapM_entryOf_renumbered (· + lineFeeds front) (logicalLines back.toList)
  rw [String.toList_append, logicalLines_append closed, List.mapM_append]
  exact congrArg _ (funext fun before => congrArg (· >>= fun after => pure (before ++ after)) later)

theorem parse_eq_map (text : String) : parse text = SettingsMap.ofList <$> entries text := by
  unfold parse
  cases entries text <;> rfl

/-- Reading a complete text and another behind it. -/
theorem parse_append_of_closed {front : String} (closed : Closed front.toList) (back : String) :
    parse (front ++ back) = do
      let map ← parse front
      let other ← (parse back).mapError (.moved (lineFeeds front))
      return map.merge other := by
  simp only [parse_eq_map]
  rw [entries_append closed]
  cases entries front with
  | error _ => rfl
  | ok before =>
    cases entries back with
    | error _ => rfl
    | ok after => exact congrArg Except.ok (SettingsMap.ofList_append before after)

/-! ### Comments and blank lines -/

/-- The text is made of whole lines, each of them blank or a comment. -/
structure Silent (text : List Char) : Prop where
  ends : text = [] ∨ text.getLast? = some '\n'
  skipped : ∀ line ∈ physicalLines text, isSkipped (Text.trimStart line) = true

theorem joinLines_of_skipped {lines : List (List Char)}
    (skipped : ∀ line ∈ lines, isSkipped (Text.trimStart line) = true) (number : Nat) :
    joinLines number none lines = [] ∧ leavesOpen lines = false := by
  induction lines generalizing number with
  | nil => exact ⟨rfl, rfl⟩
  | cons line rest inductionHypothesis =>
    have here := skipped line List.mem_cons_self
    obtain ⟨joined, finished⟩ := inductionHypothesis (fun later member =>
      skipped later (List.mem_cons_of_mem _ member)) (number + 1)
    refine ⟨?_, ?_⟩
    · rw [joinLines_cons, here]
      exact joined
    · rw [leavesOpen, List.foldl_cons, carries, here]
      exact finished

theorem Silent.closed {text : List Char} (silent : Silent text) : Closed text :=
  ⟨silent.ends, (joinLines_of_skipped silent.skipped 1).2⟩

theorem entries_of_silent {text : String} (silent : Silent text.toList) :
    entries text = .ok [] := by
  rw [entries, logicalLines, (joinLines_of_skipped silent.skipped 1).1]
  rfl

/-- Blank lines are silent. -/
theorem silent_of_blank {text : List Char} (whole : WholeLines text)
    (blank : ∀ char ∈ text, Text.isBlank char = true) : Silent text where
  ends := whole.ends
  skipped line member := by
    have nothing : Text.trimStart line = [] :=
      List.dropWhile_eq_nil_iff.mpr fun char inLine =>
        blank char (mem_of_mem_physicalLines whole member char inLine)
    rw [nothing]
    rfl

/-- Comments and blank lines between two texts only move the later one down. -/
theorem parse_append_of_silent {front : String} (closed : Closed front.toList) {middle : String}
    (silent : Silent middle.toList) (back : String) :
    parse (front ++ middle ++ back) = do
      let map ← parse front
      let other ← (parse back).mapError (.moved (lineFeeds front + lineFeeds middle))
      return map.merge other := by
  have nothing : parse middle = .ok .empty := by
    rw [parse_eq_map, entries_of_silent silent]
    rfl
  have moved : ∀ malformed : Malformed,
      (malformed.moved (lineFeeds middle)).moved (lineFeeds front) =
        malformed.moved (lineFeeds front + lineFeeds middle) := by
    intro malformed
    rw [Nat.add_comm (lineFeeds front)]
    exact congrArg (Malformed.mk · malformed.content) (Nat.add_assoc _ _ _)
  rw [String.append_assoc, parse_append_of_closed closed, parse_append_of_closed silent.closed,
    nothing]
  cases parse front with
  | error _ => rfl
  | ok map =>
    cases parse back with
    | error malformed => exact congrArg Except.error (moved malformed)
    | ok other => exact congrArg (Except.ok ∘ map.merge) other.empty_merge

/-! ### The first malformed entry -/

theorem entryOf_eq_error_iff {line : LogicalLine} {malformed : Malformed} :
    entryOf line = .error malformed ↔
      entry? line.text = none ∧ malformed = ⟨line.number, String.ofList line.text⟩ := by
  unfold entryOf
  cases entry? line.text with
  | some _ => exact ⟨nofun, fun both => nomatch both.1⟩
  | none => exact ⟨fun failed => ⟨rfl, (Except.error.inj failed).symm⟩, fun both => both.2 ▸ rfl⟩

/-- The first entry of the text begins on its first line and is malformed. -/
def BeginsMalformed (text : String) (content : String) : Prop :=
  (logicalLines text.toList).head? = some ⟨1, content.toList⟩ ∧ entry? content.toList = none

theorem BeginsMalformed.parse_eq {text content : String} (begins : BeginsMalformed text content) :
    parse text = .error ⟨1, content⟩ := by
  obtain ⟨first, malformed⟩ := begins
  obtain ⟨others, lines⟩ := List.head?_eq_some_iff.mp first
  have failed : entryOf ⟨1, content.toList⟩ = .error ⟨1, content⟩ :=
    entryOf_eq_error_iff.mpr ⟨malformed, by rw [String.ofList_toList]⟩
  rw [parse_eq_map, map_eq_error_iff, entries, mapM_eq_error_iff]
  exact ⟨[], _, others, lines, fun _ member => absurd member List.not_mem_nil, failed⟩

/-- An error is that of the first malformed entry: what stands before it is complete and is read,
and the line of the error is the one on which the entry begins. -/
theorem parse_eq_error_iff {text : String} {malformed : Malformed} :
    parse text = .error malformed ↔ ∃ front back, text = front ++ back ∧ Closed front.toList ∧
      (∃ map, parse front = .ok map) ∧ malformed.number = lineFeeds front + 1 ∧
      BeginsMalformed back malformed.content := by
  constructor
  · intro failed
    rw [parse_eq_map, map_eq_error_iff, entries, mapM_eq_error_iff] at failed
    obtain ⟨before, line, after, split, passed, failed⟩ := failed
    obtain ⟨refused, rfl⟩ := entryOf_eq_error_iff.mp failed
    obtain ⟨front, back, parts, closed, collected, number, first⟩ := split_logicalLines split
    refine ⟨String.ofList front, String.ofList back, ?_, ?_, ?_, ?_, ?_, ?_⟩
    · rw [← String.ofList_append, ← parts, String.ofList_toList]
    · rwa [String.toList_ofList]
    · obtain ⟨pairs, read⟩ := mapM_ok passed
      refine ⟨SettingsMap.ofList pairs, ?_⟩
      rw [parse_eq_map, map_eq_ok_iff]
      exact ⟨pairs, by rw [entries, String.toList_ofList, collected, read], rfl⟩
    · rw [lineFeeds, String.toList_ofList]
      exact number
    · rw [String.toList_ofList, String.toList_ofList]
      exact first
    · rwa [String.toList_ofList]
  · rintro ⟨front, back, rfl, closed, ⟨map, read⟩, number, begins⟩
    rw [parse_append_of_closed closed, read, begins.parse_eq]
    refine congrArg Except.error (congrArg (Malformed.mk · malformed.content) ?_)
    rw [number, Nat.add_comm]

/-! ### The law -/

/-- Reading is compositional. Behind a complete text, another is read as if it stood alone, with its
settings merged over those in front and its error moved down; comments and blank lines between the
two only move it further. And whatever the text, its error is that of the first malformed entry. -/
theorem parse_append (front back : String) (closed : Closed front.toList) :
    (parse (front ++ back) = do
      let map ← parse front
      let other ← (parse back).mapError (.moved (lineFeeds front))
      return map.merge other) ∧
    (∀ middle : String, Silent middle.toList → parse (front ++ middle ++ back) = do
      let map ← parse front
      let other ← (parse back).mapError (.moved (lineFeeds front + lineFeeds middle))
      return map.merge other) ∧
    ∀ text malformed, parse text = .error malformed ↔ ∃ before after, text = before ++ after ∧
      Closed before.toList ∧ (∃ map, parse before = .ok map) ∧
      malformed.number = lineFeeds before + 1 ∧ BeginsMalformed after malformed.content :=
  ⟨parse_append_of_closed closed back, fun _ silent => parse_append_of_silent closed silent back,
    fun _ _ => parse_eq_error_iff⟩

/-- The backslash of a comment continues nothing, and inside an entry a comment is text. -/
theorem parse_append_after_comment :
    let front := "# note \\\na = 1, \\\n  # 2\n"
    let back := "b\\\n =3\na: 4"
    Closed front.toList ∧
      parse (front ++ back) = .ok (.ofList [("a", "4"), ("b", "3")]) := by
  intro front back
  have closed : Closed front.toList := ⟨by decide, by decide⟩
  refine ⟨closed, ?_⟩
  rw [(parse_append front back closed).1]
  decide

end Properties

end ConnectorSettings
