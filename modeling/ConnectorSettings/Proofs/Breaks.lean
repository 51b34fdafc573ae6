/-
This file proves that continuation lines are transparent. A line of a properties text can be broken
anywhere behind its first character that is no blank, by a backslash and a line break, as long as
the backslash is not escaped and the rest does not begin with a blank: blanks in front of the rest
are dropped. The text is read as before, and only the errors of entries that begin further down are
reported one line later.

The first part of a broken line leaves an entry open, and the second part, which can be no comment
there, extends it by the rest. The backslashes at the end of the line are those at the end of the
rest, up to an even number, so the line goes on behind the rest exactly if it did before. Behind the
break joining does the same to the same lines, which only have other numbers.
-/

import ConnectorSettings.Proofs.Composition

namespace ConnectorSettings

namespace Properties

/-! ### A line in two parts -/

theorem trailingBackslashes_append (left right : List Char) :
    trailingBackslashes (left ++ right) = if trailingBackslashes right = right.length then
      trailingBackslashes right + trailingBackslashes left else trailingBackslashes right := by
  unfold trailingBackslashes
  rw [List.reverse_append, List.takeWhile_append, List.length_reverse]
  by_cases all : (right.reverse.takeWhile (· == '\\')).length = right.length
  · simp [all]
  · simp [all]

/-- Backslashes in pairs do not change the parity at the end. -/
theorem isContinued_append {left : List Char} (even : isContinued left = false)
    (right : List Char) : isContinued (left ++ right) = isContinued right := by
  have parity := isContinued_eq_false_iff.mp even
  rw [isContinued, isContinued, trailingBackslashes_append]
  split
  · rw [Nat.add_mod, parity, Nat.add_zero, Nat.mod_mod]
  · rfl

theorem continuedBody_append {left : List Char} (even : isContinued left = false)
    (right : List Char) : continuedBody (left ++ right) = left ++ continuedBody right := by
  rw [continuedBody, continuedBody, isContinued_append even]
  by_cases continued : isContinued right = true
  · have filled : right ≠ [] := by
      rintro rfl
      cases continued
    rw [if_pos continued, if_pos continued, List.dropLast_append_of_ne_nil filled]
  · rw [if_neg continued, if_neg continued]

/-- No blank is a backslash. -/
theorem isContinued_trimStart (text : List Char) :
    isContinued (Text.trimStart text) = isContinued text := by
  induction text with
  | nil => rfl
  | cons char rest inductionHypothesis =>
    by_cases blank : Text.isBlank char = true
    · have other : char ≠ '\\' := by
        rintro rfl
        revert blank
        decide
      rw [isContinued_cons other, ← inductionHypothesis, Text.trimStart, Text.trimStart,
        List.dropWhile_cons_of_pos blank]
    · rw [Text.trimStart, List.dropWhile_cons_of_neg blank]

theorem isSkipped_append {left : List Char} (filled : left ≠ []) (right : List Char) :
    isSkipped (left ++ right) = isSkipped left := by
  cases left with
  | nil => exact absurd rfl filled
  | cons _ _ => rfl

/-- A line can be broken between its two parts: the first has a character that is no blank and ends
in an even number of backslashes, the second does not begin with a blank. -/
structure Breakable (left right : List Char) : Prop where
  filled : ∃ char ∈ left, Text.isBlank char = false
  even : trailingBackslashes left % 2 = 0
  noBlank : ∀ char ∈ right.head?, Text.isBlank char = false

namespace Breakable

variable {left right : List Char}

theorem trimStart_ne_nil (breakable : Breakable left right) : Text.trimStart left ≠ [] := by
  intro nothing
  obtain ⟨char, member, noBlank⟩ := breakable.filled
  have blank := List.dropWhile_eq_nil_iff.mp nothing char member
  exact Bool.false_ne_true (noBlank.symm.trans blank)

theorem trimStart_append (breakable : Breakable left right) (rest : List Char) :
    Text.trimStart (left ++ rest) = Text.trimStart left ++ rest := by
  have kept : (left.dropWhile Text.isBlank).isEmpty = false :=
    List.isEmpty_eq_false_iff.mpr breakable.trimStart_ne_nil
  rw [Text.trimStart, Text.trimStart, List.dropWhile_append, kept]
  rfl

theorem notContinued (breakable : Breakable left right) :
    isContinued (Text.trimStart left) = false := by
  rw [isContinued_trimStart, isContinued_eq_false_iff, breakable.even]

/-- With one of its parts for the rest, a line continues as the rest does. -/
theorem isContinued_append (breakable : Breakable left right) (rest : List Char) :
    isContinued (Text.trimStart (left ++ rest)) = isContinued rest := by
  rw [breakable.trimStart_append, Properties.isContinued_append breakable.notContinued]

theorem continuedBody_append (breakable : Breakable left right) (rest : List Char) :
    continuedBody (Text.trimStart (left ++ rest)) = Text.trimStart left ++ continuedBody rest := by
  rw [breakable.trimStart_append, Properties.continuedBody_append breakable.notContinued]

theorem isSkipped_append (breakable : Breakable left right) (rest : List Char) :
    isSkipped (Text.trimStart (left ++ rest)) = isSkipped (Text.trimStart left) := by
  rw [breakable.trimStart_append, Properties.isSkipped_append breakable.trimStart_ne_nil]

end Breakable

/-! ### Joining behind a break -/

/-- The number of a line in a text with one more line behind the last one that keeps its number. -/
def numberBehind (last number : Nat) : Nat :=
  if number ≤ last then number else number + 1

theorem LogicalLine.renumbered_of_le {last : Nat} {line : LogicalLine}
    (before : line.number ≤ last) : line.renumbered (numberBehind last) = line := by
  rw [LogicalLine.renumbered, numberBehind, if_pos before]

theorem joinLines_behind (last : Nat) {pending : Option LogicalLine}
    (begun : ∀ line ∈ pending, line.number ≤ last) (lines : List (List Char)) :
    joinLines (last + 2) pending lines =
      (joinLines (last + 1) pending lines).map (.renumbered (numberBehind last)) := by
  have onwards : ∀ offset, numberBehind last (last + 1 + offset) = last + 2 + offset := by
    intro offset
    rw [numberBehind, if_neg (by omega)]
    omega
  rw [← joinLines_renumbered (numberBehind last) onwards]
  cases pending with
  | none => rfl
  | some line => rw [Option.map_some, LogicalLine.renumbered_of_le (begun line rfl)]

/-- A physical line that is no comment extends the pending line. -/
theorem joinLines_of_entry (number : Nat) {pending : Option LogicalLine} {physical : List Char}
    (entry : pending = none → isSkipped (Text.trimStart physical) = false)
    (rest : List (List Char)) :
    joinLines number pending (physical :: rest) =
      if isContinued (Text.trimStart physical) = true then
        joinLines (number + 1) (some (extended number pending physical)) rest
      else extended number pending physical :: joinLines (number + 1) none rest := by
  rw [joinLines_cons, if_neg]
  rw [Bool.and_eq_true, Option.isNone_iff_eq_none]
  rintro ⟨none, skipped⟩
  exact Bool.false_ne_true ((entry none).symm.trans skipped)

/-- What stands behind a break: a line with the second part of the broken line, or nothing at all at
the end of the text. -/
inductive Follows (right : List Char) : List (List Char) → List (List Char) → Prop
  | line {second : List Char} {after : List (List Char)}
      (same : Text.trimStart second = right) : Follows right (second :: after) after
  | textEnd (nothing : right = []) : Follows right [] []

theorem joinLines_broken {number : Nat} {pending : Option LogicalLine} {left right : List Char}
    {behind after : List (List Char)} (breakable : Breakable left right)
    (entry : pending = none → isSkipped (Text.trimStart (left ++ right)) = false)
    (older : ∀ line ∈ pending, line.number < number) (follows : Follows right behind after) :
    joinLines number pending ((left ++ ['\\']) :: behind) =
      (joinLines number pending ((left ++ right) :: after)).map
        (.renumbered (numberBehind number)) := by
  have begins : pending = none → isSkipped (Text.trimStart (left ++ ['\\'])) = false := by
    rwa [breakable.isSkipped_append, ← breakable.isSkipped_append right]
  have opened : isContinued (Text.trimStart (left ++ ['\\'])) = true := by
    rw [breakable.isContinued_append]
    rfl
  have kept : (extended number pending (left ++ right)).number ≤ number :=
    Nat.le_of_lt_succ (extended_number_lt older _)
  have dropped : continuedBody ['\\'] = [] := rfl
  rw [joinLines_of_entry number begins, if_pos opened, joinLines_of_entry number entry,
    breakable.isContinued_append]
  cases follows with
  | @line second after same =>
    have joined : extended (number + 1) (some (extended number pending (left ++ ['\\']))) second =
        extended number pending (left ++ right) := by
      simp only [extended, Option.getD_some, same, breakable.continuedBody_append, dropped,
        List.append_nil, List.append_assoc]
    have noComment : some (extended number pending (left ++ ['\\'])) = none →
        isSkipped (Text.trimStart second) = false := nofun
    rw [joinLines_of_entry (number + 1) noComment, same, joined]
    have begun : ∀ line ∈ some (extended number pending (left ++ right)), line.number ≤ number := by
      rintro line ⟨⟩
      exact kept
    have nothing : ∀ line ∈ (none : Option LogicalLine), line.number ≤ number := nofun
    split
    · exact joinLines_behind number begun after
    · rw [List.map_cons, LogicalLine.renumbered_of_le kept]
      exact congrArg _ (joinLines_behind number nothing after)
  | textEnd nothing =>
    subst nothing
    have same : extended number pending (left ++ ['\\']) =
        extended number pending (left ++ []) := by
      simp only [extended, breakable.continuedBody_append, dropped]
      rfl
    rw [same]
    show [extended number pending (left ++ [])] =
      [(extended number pending (left ++ [])).renumbered _]
    rw [LogicalLine.renumbered_of_le kept]

/-- A broken line further down. What joining has done before it is left as it is. -/
theorem joinLines_append_broken {before behind after : List (List Char)} {left right : List Char}
    (breakable : Breakable left right)
    (entry : leavesOpen before = false → isSkipped (Text.trimStart (left ++ right)) = false)
    (follows : Follows right behind after) :
    joinLines 1 none (before ++ (left ++ ['\\']) :: behind) =
      (joinLines 1 none (before ++ (left ++ right) :: after)).map
        (.renumbered (numberBehind (before.length + 1))) := by
  obtain ⟨done, next, joined⟩ := exists_joined 1 none before
  obtain ⟨finished, older⟩ := joined.begun nofun
  have closed : next = none → isSkipped (Text.trimStart (left ++ right)) = false := by
    rintro rfl
    exact entry joined.carried
  have kept : done.map (.renumbered (numberBehind (1 + before.length))) = done := by
    refine List.map_congr_left (g := id) (fun line member => ?_) |>.trans (List.map_id done)
    exact LogicalLine.renumbered_of_le (Nat.le_of_lt (finished line member))
  rw [joined.joins, joined.joins, joinLines_broken breakable closed older follows,
    Nat.add_comm before.length, List.map_append, kept]

/-! ### Line breaks -/

/-- What stands behind a line of a text, its line break included, and the lines that follow. -/
inductive LineEnd (line : List Char) : List Char → List (List Char) → Prop
  | feed (rest : List Char) (noReturn : line.getLast? ≠ some '\r') :
      LineEnd line ('\n' :: rest) (physicalLines rest)
  | returnFeed (rest : List Char) : LineEnd line ('\r' :: '\n' :: rest) (physicalLines rest)
  | textEnd : LineEnd line [] []

theorem withoutReturn_concat (line : List Char) : withoutReturn (line ++ ['\r']) = line := by
  rw [withoutReturn, if_pos List.getLast?_concat, List.dropLast_concat]

theorem withoutReturn_of_getLast? {line : List Char} (noReturn : line.getLast? ≠ some '\r') :
    withoutReturn line = line :=
  if_neg noReturn

/-- A text whose first line is known begins with it. -/
theorem exists_lineEnd {text line : List Char} {after : List (List Char)}
    (lines : physicalLines text = line :: after) :
    ∃ back, text = line ++ back ∧ '\n' ∉ line ∧ LineEnd line back after := by
  by_cases feed : '\n' ∈ text
  · obtain ⟨head, rest, rfl, whole⟩ := List.eq_append_cons_of_mem feed
    rw [physicalLines_line whole] at lines
    obtain ⟨rfl, rfl⟩ := List.cons.inj lines
    by_cases carriage : head.getLast? = some '\r'
    · obtain ⟨front, rfl⟩ := List.getLast?_eq_some_iff.mp carriage
      rw [withoutReturn_concat]
      exact ⟨'\r' :: '\n' :: rest, by simp, fun member => whole (List.mem_append_left _ member),
        .returnFeed rest⟩
    · rw [withoutReturn_of_getLast? carriage]
      exact ⟨'\n' :: rest, rfl, whole, .feed rest carriage⟩
  · have filled : text ≠ [] := by
      rintro rfl
      cases lines
    rw [physicalLines_of_not_mem feed filled] at lines
    obtain ⟨rfl, rfl⟩ := List.cons.inj lines
    exact ⟨[], (List.append_nil _).symm, feed, .textEnd⟩

theorem physicalLines_backslash {left lineBreak : List Char} (whole : '\n' ∉ left)
    (isBreak : lineBreak ∈ [['\n'], ['\r', '\n']]) (rest : List Char) :
    physicalLines (left ++ '\\' :: lineBreak ++ rest) =
      (left ++ ['\\']) :: physicalLines rest := by
  have noFeed : '\n' ∉ left ++ ['\\'] := by simp [whole]
  rcases List.mem_pair.mp isBreak with rfl | rfl
  · have parts : left ++ '\\' :: ['\n'] ++ rest = left ++ ['\\'] ++ '\n' :: rest := by simp
    rw [parts, physicalLines_line noFeed, withoutReturn_of_getLast? (by simp)]
  · have parts : left ++ '\\' :: ['\r', '\n'] ++ rest =
        left ++ ['\\'] ++ ['\r'] ++ '\n' :: rest := by simp
    rw [parts, physicalLines_line (by simp [whole]), withoutReturn_concat]

/-- Behind a break stands the second part of the line, whatever blanks are put in front of it. -/
theorem follows_of_lineEnd {left right indent back : List Char} {after : List (List Char)}
    (lineEnd : LineEnd (left ++ right) back after) (whole : '\n' ∉ left ++ right)
    (noBlank : ∀ char ∈ right.head?, Text.isBlank char = false)
    (blank : ∀ char ∈ indent, Text.isBlank char = true ∧ char ≠ '\n') :
    Follows right (physicalLines (indent ++ right ++ back)) after := by
  have noFeed : '\n' ∉ indent ++ right := by
    rintro member
    rcases List.mem_append.mp member with inIndent | inRight
    · exact (blank _ inIndent).2 rfl
    · exact whole (List.mem_append_right _ inRight)
  have same : Text.trimStart (indent ++ right) = right := by
    rw [Text.trimStart_append_of_blank fun char member => (blank char member).1,
      Text.trimStart_of_head? noBlank]
  cases lineEnd with
  | feed rest noReturn =>
    rw [physicalLines_line noFeed]
    by_cases carriage : (indent ++ right).getLast? = some '\r'
    · -- Only blanks stand there, and one of them is taken for a part of the line break.
      have nothing : right = [] := by
        by_contra filled
        rw [List.getLast?_append_of_ne_nil _ filled] at carriage
        exact noReturn ((List.getLast?_append_of_ne_nil _ filled).trans carriage)
      subst nothing
      rw [List.append_nil] at carriage ⊢
      obtain ⟨front, rfl⟩ := List.getLast?_eq_some_iff.mp carriage
      rw [withoutReturn_concat]
      refine .line (List.dropWhile_eq_nil_iff.mpr fun char member => ?_)
      exact (blank char (List.mem_append_left _ member)).1
    · rw [withoutReturn_of_getLast? carriage]
      exact .line same
  | returnFeed rest =>
    have parts : indent ++ right ++ '\r' :: '\n' :: rest =
        indent ++ right ++ ['\r'] ++ '\n' :: rest := by simp
    rw [parts, physicalLines_line (by simpa using noFeed), withoutReturn_concat]
    exact .line same
  | textEnd =>
    rw [List.append_nil]
    by_cases nothing : indent ++ right = []
    · rw [nothing]
      exact .textEnd (List.append_eq_nil_iff.mp nothing).2
    · rw [physicalLines_of_not_mem noFeed nothing]
      exact .line same

/-! ### The law -/

/-- A text whose logical lines are those of another under other numbers is read like the other, and
its errors are reported under these numbers. -/
theorem parse_of_renumbered {text other : String} (renumber : Nat → Nat)
    (lines : logicalLines other.toList = (logicalLines text.toList).map (.renumbered renumber)) :
    parse other = (parse text).mapError (.renumbered renumber) := by
  rw [parse_eq_map, parse_eq_map, entries, entries, lines, mapM_entryOf_renumbered]
  cases (logicalLines text.toList).mapM entryOf <;> rfl

/-- Continuation lines are transparent. Any line of a text that is no skipped comment can be broken
in two, wherever it is `Breakable`, by a backslash and a line break, and any blanks that end no line
can be put in front of its second part. What the text gives is the same map, or the same error,
reported one line further down if its entry begins behind the line. -/
theorem parse_broken {text : String} {before after : List (List Char)} {line : List Char}
    (lines : physicalLines text.toList = before ++ line :: after)
    (entry : leavesOpen before = false → isSkipped (Text.trimStart line) = false) :
    ∃ front back, text.toList = front ++ line ++ back ∧ WholeLines front ∧
      physicalLines front = before ∧
      ∀ left right, line = left ++ right → Breakable left right →
        ∀ lineBreak ∈ [['\n'], ['\r', '\n']], ∀ indent : List Char,
          (∀ char ∈ indent, Text.isBlank char = true ∧ char ≠ '\n') →
          parse (String.ofList (front ++ (left ++ '\\' :: lineBreak ++ indent ++ right) ++ back)) =
            (parse text).mapError fun malformed =>
              if malformed.number ≤ before.length + 1 then malformed
              else malformed.moved 1 := by
  obtain ⟨front, tail, parts, whole, frontLines, tailLines⟩ := split_physicalLines lines
  obtain ⟨back, rfl, oneLine, lineEnd⟩ := exists_lineEnd tailLines
  refine ⟨front, back, by rw [parts, List.append_assoc], whole, frontLines, ?_⟩
  rintro left right rfl breakable lineBreak isBreak indent blank
  have brokenLines :
      logicalLines (front ++ (left ++ '\\' :: lineBreak ++ indent ++ right) ++ back) =
      (logicalLines text.toList).map (.renumbered (numberBehind (before.length + 1))) := by
    have follows := follows_of_lineEnd lineEnd oneLine breakable.noBlank blank
    have noFeed : '\n' ∉ left := fun member => oneLine (List.mem_append_left _ member)
    have regroup : front ++ (left ++ '\\' :: lineBreak ++ indent ++ right) ++ back =
        front ++ (left ++ '\\' :: lineBreak ++ (indent ++ right ++ back)) := by
      simp only [List.append_assoc]
    rw [logicalLines, regroup, physicalLines_append whole, physicalLines_backslash noFeed isBreak,
      frontLines, joinLines_append_broken breakable entry follows, logicalLines, lines]
  have renumbered : Malformed.renumbered (numberBehind (before.length + 1)) = fun malformed =>
      if malformed.number ≤ before.length + 1 then malformed else malformed.moved 1 := by
    funext malformed
    rw [Malformed.renumbered, numberBehind]
    split <;> rfl
  rw [← renumbered]
  exact parse_of_renumbered _ (by rw [String.toList_ofList, brokenLines])

/-- A break between the digits of an escape, in a line that is itself a continuation, moves the
error of a later entry. -/
theorem parse_broken_inside_escape :
    let text := "# c\nk = a\\\n  \\u0041\nx=1\n=bad\n"
    let before := ["# c".toList, "k = a\\".toList]
    let left := "  \\u00".toList
    let right := "41".toList
    physicalLines text.toList = before ++ (left ++ right) :: ["x=1".toList, "=bad".toList] ∧
      (leavesOpen before = false → isSkipped (Text.trimStart (left ++ right)) = false) ∧
      Breakable left right ∧ parse text = .error ⟨5, "=bad"⟩ ∧
      ∃ front back, text.toList = front ++ (left ++ right) ++ back ∧
        physicalLines front = before ∧
        parse (String.ofList (front ++ (left ++ '\\' :: ['\r', '\n'] ++ ['\t', ' '] ++ right) ++
          back)) = .error ⟨6, "=bad"⟩ := by
  intro text before left right
  have lines : physicalLines text.toList =
      before ++ (left ++ right) :: ["x=1".toList, "=bad".toList] := by decide
  have entry : leavesOpen before = false →
      isSkipped (Text.trimStart (left ++ right)) = false := by decide
  have breakable : Breakable left right :=
    ⟨⟨'u', by decide, by decide⟩, by decide, by rintro char ⟨⟩; decide⟩
  have failed : parse text = .error ⟨5, "=bad"⟩ := by decide
  have blank : ∀ char ∈ ['\t', ' '], Text.isBlank char = true ∧ char ≠ '\n' := by
    intro char member
    rcases List.mem_pair.mp member with rfl | rfl <;> decide
  obtain ⟨front, back, parts, -, frontLines, law⟩ := parse_broken lines entry
  refine ⟨lines, entry, breakable, failed, front, back, parts, frontLines, ?_⟩
  rw [law left right rfl breakable ['\r', '\n'] (by decide) ['\t', ' '] blank, failed]
  rfl

end Properties

end ConnectorSettings
