/-
This file proves how a properties text falls into lines when it is put together from pieces.

A text that is empty or ends with a line feed can be followed by any other: the physical lines of
the two follow each other. Logical lines are joined with one fact carried along, whether an entry is
open, so where none is left open the logical lines follow each other too, the later ones with their
numbers moved by the lines in front. A logical line therefore never depends on what stands before
the physical line on which it begins, and its number is that of this line.
-/

import ConnectorSettings.Properties
import ConnectorSettings.Proofs.Passes

namespace ConnectorSettings

namespace Properties

/-! ### Physical lines -/

/-- A line without the carriage return that belongs to the line feed after it. -/
def withoutReturn (line : List Char) : List Char :=
  if line.getLast? = some '\r' then line.dropLast else line

/-- Texts made of whole lines, each with its line feed. -/
inductive WholeLines : List Char → Prop
  | nil : WholeLines []
  | line {line text : List Char} (whole : '\n' ∉ line) (rest : WholeLines text) :
      WholeLines (line ++ '\n' :: text)

/-- A character that ends no line belongs to the first line of the text. -/
theorem physicalLines_cons {char : Char} {text : List Char} (inside : char ≠ '\n')
    (alone : char = '\r' → text.head? ≠ some '\n') :
    physicalLines (char :: text) =
      (char :: (physicalLines text).headD []) :: (physicalLines text).tail := by
  rw [physicalLines]
  · cases physicalLines text <;> rfl
  · exact fun same => inside same
  · rintro rest rfl rfl
    exact alone rfl rfl

theorem physicalLines_line {line : List Char} (whole : '\n' ∉ line) (rest : List Char) :
    physicalLines (line ++ '\n' :: rest) = withoutReturn line :: physicalLines rest := by
  induction line with
  | nil => rfl
  | cons char line inductionHypothesis =>
    obtain ⟨first, whole⟩ := List.ne_and_not_mem_of_not_mem_cons whole
    rw [List.cons_append]
    cases line with
    | nil =>
      by_cases carriage : char = '\r'
      · rw [carriage]
        rfl
      · rw [List.nil_append, physicalLines_cons (Ne.symm first) fun same => absurd same carriage]
        simp [withoutReturn, physicalLines, carriage]
    | cons second line =>
      have alone : (second :: line ++ '\n' :: rest).head? ≠ some '\n' := by
        rintro ⟨⟩
        exact whole List.mem_cons_self
      rw [physicalLines_cons (Ne.symm first) fun _ => alone, inductionHypothesis whole]
      simp only [withoutReturn, List.getLast?_cons_cons, List.headD_cons, List.tail_cons]
      split <;> rfl

/-- A text without a line feed is one line. -/
theorem physicalLines_of_not_mem {text : List Char} (whole : '\n' ∉ text) (filled : text ≠ []) :
    physicalLines text = [text] := by
  induction text with
  | nil => exact absurd rfl filled
  | cons char text inductionHypothesis =>
    obtain ⟨first, whole⟩ := List.ne_and_not_mem_of_not_mem_cons whole
    rw [physicalLines_cons (Ne.symm first) fun _ same => whole (List.mem_of_mem_head? same)]
    cases text with
    | nil => rfl
    | cons second text =>
      rw [inductionHypothesis whole (List.cons_ne_nil _ _)]
      rfl

/-- Whole lines as far as they go, and what the last line feed leaves. -/
theorem exists_wholeLines_append (text : List Char) :
    ∃ whole part, text = whole ++ part ∧ WholeLines whole ∧ '\n' ∉ part := by
  by_cases feed : '\n' ∈ text
  · obtain ⟨line, rest, rfl, noFeed⟩ := List.eq_append_cons_of_mem feed
    obtain ⟨whole, part, rfl, lines, last⟩ := exists_wholeLines_append rest
    exact ⟨line ++ '\n' :: whole, part, by simp, .line noFeed lines, last⟩
  · exact ⟨[], text, rfl, .nil, feed⟩
termination_by text.length

theorem wholeLines_of_getLast? {text : List Char} (ends : text = [] ∨ text.getLast? = some '\n') :
    WholeLines text := by
  obtain ⟨whole, part, rfl, lines, last⟩ := exists_wholeLines_append text
  rcases List.eq_nil_or_concat' part with rfl | ⟨others, char, rfl⟩
  · rwa [List.append_nil]
  · rcases ends with nil | feed
    · simp at nil
    · obtain rfl : char = '\n' := by simpa [← List.append_assoc] using feed
      simp at last

theorem WholeLines.ends {text : List Char} (whole : WholeLines text) :
    text = [] ∨ text.getLast? = some '\n' := by
  induction whole with
  | nil => exact .inl rfl
  | line _ _ inductionHypothesis =>
    right
    rcases inductionHypothesis with rfl | last
    · simp
    · simp [List.getLast?_cons, last]

theorem physicalLines_append {front : List Char} (whole : WholeLines front) (back : List Char) :
    physicalLines (front ++ back) = physicalLines front ++ physicalLines back := by
  induction whole with
  | nil => rfl
  | line noFeed _ inductionHypothesis =>
    rw [List.append_assoc, List.cons_append, physicalLines_line noFeed, physicalLines_line noFeed,
      inductionHypothesis, List.cons_append]

theorem mem_of_mem_physicalLines {text : List Char} (whole : WholeLines text) {line : List Char}
    (member : line ∈ physicalLines text) : ∀ char ∈ line, char ∈ text := by
  induction whole with
  | nil => cases member
  | @line first text noFeed _ inductionHypothesis =>
    rw [physicalLines_line noFeed] at member
    intro char inLine
    rcases List.mem_cons.mp member with rfl | later
    · refine List.mem_append_left _ ?_
      unfold withoutReturn at inLine
      split at inLine
      · exact List.dropLast_subset first inLine
      · exact inLine
    · have found := inductionHypothesis later char inLine
      exact List.mem_append_right _ (List.mem_cons_of_mem _ found)

/-- As many lines as line feeds. -/
theorem length_physicalLines {text : List Char} (whole : WholeLines text) :
    (physicalLines text).length = text.count '\n' := by
  induction whole with
  | nil => rfl
  | line noFeed _ inductionHypothesis =>
    rw [physicalLines_line noFeed, List.length_cons, inductionHypothesis, List.count_append,
      List.count_eq_zero.mpr noFeed, List.count_cons_self, Nat.zero_add]

/-- A text can be parted in front of any of its lines, behind whole lines. -/
theorem split_physicalLines {text : List Char} {before : List (List Char)} {line : List Char}
    {after : List (List Char)} (split : physicalLines text = before ++ line :: after) :
    ∃ front back, text = front ++ back ∧ WholeLines front ∧ physicalLines front = before ∧
      physicalLines back = line :: after := by
  induction before generalizing text with
  | nil => exact ⟨[], text, rfl, .nil, rfl, split⟩
  | cons first before inductionHypothesis =>
    by_cases feed : '\n' ∈ text
    · obtain ⟨head, rest, rfl, whole⟩ := List.eq_append_cons_of_mem feed
      rw [physicalLines_line whole] at split
      obtain ⟨sameFirst, split⟩ := List.cons.inj split
      obtain ⟨front, back, rfl, frontWhole, frontLines, backLines⟩ := inductionHypothesis split
      refine ⟨head ++ '\n' :: front, back, by simp, .line whole frontWhole, ?_, backLines⟩
      rw [physicalLines_line whole, frontLines, sameFirst]
    · -- Without a line feed there is one line at most, and so none behind the first.
      have filled : text ≠ [] := by
        rintro rfl
        cases split
      rw [physicalLines_of_not_mem feed filled] at split
      have none := (List.cons.inj split).2
      simp at none

/-! ### Backslashes at the end -/

/-- One more character in front is counted if it is a backslash and so is all that follows it. -/
theorem trailingBackslashes_cons (char : Char) (text : List Char) :
    trailingBackslashes (char :: text) =
      if trailingBackslashes text = text.length ∧ char = '\\' then trailingBackslashes text + 1
      else trailingBackslashes text := by
  unfold trailingBackslashes
  rw [List.reverse_cons, List.takeWhile_append, List.length_reverse]
  by_cases all : (text.reverse.takeWhile (· == '\\')).length = text.length
  · by_cases backslash : char = '\\' <;> simp [all, backslash]
  · simp [all]

theorem trailingBackslashes_le (text : List Char) : trailingBackslashes text ≤ text.length := by
  rw [← List.length_reverse, trailingBackslashes]
  exact (List.takeWhile_prefix _).length_le

theorem isContinued_eq_false_iff {text : List Char} :
    isContinued text = false ↔ trailingBackslashes text % 2 = 0 := by
  rw [isContinued, beq_eq_false_iff_ne, Nat.mod_two_ne_one]

theorem isContinued_cons {char : Char} (other : char ≠ '\\') (text : List Char) :
    isContinued (char :: text) = isContinued text := by
  rw [isContinued, isContinued, trailingBackslashes_cons, if_neg fun both => other both.2]

/-- A backslash and what it stands in front of do not change the parity at the end. -/
theorem isContinued_pair (sign : Char) (text : List Char) :
    isContinued ('\\' :: sign :: text) = isContinued text := by
  have bound := trailingBackslashes_le text
  have parity : trailingBackslashes ('\\' :: sign :: text) % 2 = trailingBackslashes text % 2 := by
    rw [trailingBackslashes_cons, trailingBackslashes_cons sign, List.length_cons]
    by_cases all : trailingBackslashes text = text.length
    · by_cases backslash : sign = '\\'
      · simp [all, backslash, Nat.add_assoc]
      · simp [all, backslash]
    · have fewer : trailingBackslashes text ≠ text.length + 1 := by omega
      simp [all, fewer]
  rw [isContinued, isContinued, parity]

/-! ### Open entries -/

/-- Whether an entry goes on behind a physical line, given whether one is open in front of it. -/
def carries (isOpen : Bool) (physical : List Char) : Bool :=
  (isOpen || !isSkipped (Text.trimStart physical)) && isContinued (Text.trimStart physical)

/-- Whether the last of these lines leaves an entry open that goes on in the next one. Comments
leave none open, whatever they end in. -/
def leavesOpen (lines : List (List Char)) : Bool :=
  lines.foldl carries false

/-- The text is complete: it is empty or ends with a line feed, and no entry goes on behind it. -/
structure Closed (text : List Char) : Prop where
  ends : text = [] ∨ text.getLast? = some '\n'
  finished : leavesOpen (physicalLines text) = false

theorem Closed.wholeLines {text : List Char} (closed : Closed text) : WholeLines text :=
  wholeLines_of_getLast? closed.ends

/-! ### Joining -/

/-- The pending line, or a new one that begins here, with this physical line appended. -/
def extended (number : Nat) (pending : Option LogicalLine) (physical : List Char) : LogicalLine :=
  ⟨(pending.getD ⟨number, []⟩).number,
    (pending.getD ⟨number, []⟩).text ++ continuedBody (Text.trimStart physical)⟩

theorem joinLines_cons (number : Nat) (pending : Option LogicalLine) (physical : List Char)
    (rest : List (List Char)) :
    joinLines number pending (physical :: rest) =
      if (pending.isNone && isSkipped (Text.trimStart physical)) = true then
        joinLines (number + 1) none rest
      else if isContinued (Text.trimStart physical) = true then
        joinLines (number + 1) (some (extended number pending physical)) rest
      else extended number pending physical :: joinLines (number + 1) none rest := by
  rw [joinLines]
  rfl

/-- What joining does with a physical line: it skips it, or leaves the line pending that it extends,
or finishes that line. -/
inductive Joins (number : Nat) (pending : Option LogicalLine) (physical : List Char) : Prop
  | skipped (closed : pending = none) (carried : carries pending.isSome physical = false)
      (joins : ∀ rest, joinLines number pending (physical :: rest) =
        joinLines (number + 1) none rest)
  | continued (entry : pending = none → isSkipped (Text.trimStart physical) = false)
      (carried : carries pending.isSome physical = true)
      (joins : ∀ rest, joinLines number pending (physical :: rest) =
        joinLines (number + 1) (some (extended number pending physical)) rest)
  | finished (entry : pending = none → isSkipped (Text.trimStart physical) = false)
      (carried : carries pending.isSome physical = false)
      (joins : ∀ rest, joinLines number pending (physical :: rest) =
        extended number pending physical :: joinLines (number + 1) none rest)

theorem joins (number : Nat) (pending : Option LogicalLine) (physical : List Char) :
    Joins number pending physical := by
  by_cases skip : (pending.isNone && isSkipped (Text.trimStart physical)) = true
  · obtain ⟨closed, blank⟩ := Bool.and_eq_true_iff.mp skip
    obtain rfl := Option.isNone_iff_eq_none.mp closed
    refine .skipped rfl (by simp [carries, blank]) fun rest => ?_
    rw [joinLines_cons, if_pos skip]
  · have entry : pending = none → isSkipped (Text.trimStart physical) = false := by
      rintro rfl
      exact Bool.eq_false_iff.mpr fun blank => skip (by simp [blank])
    have kept : carries pending.isSome physical = isContinued (Text.trimStart physical) := by
      cases pending with
      | none => simp [carries, entry rfl]
      | some _ => rfl
    by_cases continued : isContinued (Text.trimStart physical) = true
    · refine .continued entry (kept.trans continued) fun rest => ?_
      rw [joinLines_cons, if_neg skip, if_pos continued]
    · refine .finished entry (kept.trans (Bool.eq_false_iff.mpr continued)) fun rest => ?_
      rw [joinLines_cons, if_neg skip, if_neg continued]

/-- What joining has done with the lines of a front when it comes to what stands behind them. -/
structure Joined (number : Nat) (pending : Option LogicalLine) (front : List (List Char))
    (done : List LogicalLine) (next : Option LogicalLine) : Prop where
  joins : ∀ back, joinLines number pending (front ++ back) =
    done ++ joinLines (number + front.length) next back
  carried : front.foldl carries pending.isSome = next.isSome
  /-- The lines that it has begun have the numbers of lines in front. -/
  begun : (∀ line ∈ pending, line.number < number) →
    (∀ line ∈ done, line.number < number + front.length) ∧
      ∀ line ∈ next, line.number < number + front.length

/-- One more physical line in front, which leaves the pending line `next` and finishes the lines
`done`. -/
theorem Joined.cons {number : Nat} {pending next last : Option LogicalLine} {physical : List Char}
    {front : List (List Char)} {later : List LogicalLine} (done : List LogicalLine)
    (joined : Joined (number + 1) next front later last)
    (joins : ∀ back, joinLines number pending (physical :: back) =
      done ++ joinLines (number + 1) next back)
    (carried : carries pending.isSome physical = next.isSome)
    (begun : (∀ line ∈ pending, line.number < number) →
      (∀ line ∈ done, line.number < number + 1) ∧ ∀ line ∈ next, line.number < number + 1) :
    Joined number pending (physical :: front) (done ++ later) last := by
  have length : number + (physical :: front).length = number + 1 + front.length := by
    rw [List.length_cons, Nat.add_assoc, Nat.add_comm 1]
  refine ⟨fun back => ?_, ?_, fun older => ?_⟩
  · rw [List.cons_append, joins, joined.joins, List.append_assoc, length]
  · rw [List.foldl_cons, carried, joined.carried]
  · obtain ⟨finished, open_⟩ := begun older
    obtain ⟨finishedLater, openLater⟩ := joined.begun open_
    rw [length]
    refine ⟨fun line member => ?_, openLater⟩
    rcases List.mem_append.mp member with here | later
    · exact Nat.lt_of_lt_of_le (finished line here) (Nat.le_add_right _ _)
    · exact finishedLater line later

theorem extended_number_lt {number : Nat} {pending : Option LogicalLine}
    (older : ∀ line ∈ pending, line.number < number) (physical : List Char) :
    (extended number pending physical).number < number + 1 := by
  cases pending with
  | none => exact Nat.lt_succ_self number
  | some begun => exact Nat.lt_succ_of_lt (older begun rfl)

/-- Joining goes through the lines of a front whatever stands behind them. -/
theorem exists_joined (number : Nat) (pending : Option LogicalLine) (front : List (List Char)) :
    ∃ done next, Joined number pending front done next := by
  induction front generalizing number pending with
  | nil => exact ⟨[], pending, fun _ => rfl, rfl, fun older => ⟨nofun, older⟩⟩
  | cons physical rest inductionHypothesis =>
    cases joins number pending physical with
    | skipped _ carried joins =>
      obtain ⟨done, next, joined⟩ := inductionHypothesis (number + 1) none
      exact ⟨_, next, joined.cons [] joins carried fun _ => ⟨nofun, nofun⟩⟩
    | continued _ carried joins =>
      obtain ⟨done, next, joined⟩ :=
        inductionHypothesis (number + 1) (some (extended number pending physical))
      refine ⟨_, next, joined.cons [] joins carried fun older => ⟨nofun, ?_⟩⟩
      rintro line ⟨⟩
      exact extended_number_lt older physical
    | finished _ carried joins =>
      obtain ⟨done, next, joined⟩ := inductionHypothesis (number + 1) none
      refine ⟨_, next, joined.cons [_] joins carried fun older => ⟨?_, nofun⟩⟩
      intro line member
      exact List.mem_singleton.mp member ▸ extended_number_lt older physical

/-- Joining starts anew where no entry is open. The pending line is what an open entry is. -/
theorem joinLines_append {number : Nat} {pending : Option LogicalLine} {front : List (List Char)}
    (finished : front.foldl carries pending.isSome = false) (back : List (List Char)) :
    joinLines number pending (front ++ back) =
      joinLines number pending front ++ joinLines (number + front.length) none back := by
  obtain ⟨done, next, joined⟩ := exists_joined number pending front
  rw [joined.carried] at finished
  obtain rfl := Option.not_isSome_iff_eq_none.mp (Bool.eq_false_iff.mp finished)
  have alone : joinLines number pending front = done := by
    have nothing := joined.joins []
    rwa [List.append_nil, joinLines, Option.toList_none, List.append_nil] at nothing
  rw [joined.joins, alone]

/-- The same line with another number. -/
def LogicalLine.renumbered (renumber : Nat → Nat) (line : LogicalLine) : LogicalLine :=
  ⟨renumber line.number, line.text⟩

/-- The same line further down in a longer text. -/
def LogicalLine.moved (distance : Nat) (line : LogicalLine) : LogicalLine :=
  ⟨line.number + distance, line.text⟩

/-- Joining does not look at the numbers of the lines. -/
theorem joinLines_renumbered (renumber : Nat → Nat) {number other : Nat}
    (onwards : ∀ offset, renumber (number + offset) = other + offset)
    (pending : Option LogicalLine) (lines : List (List Char)) :
    joinLines other (pending.map (.renumbered renumber)) lines =
      (joinLines number pending lines).map (.renumbered renumber) := by
  induction lines generalizing number other pending with
  | nil => cases pending <;> rfl
  | cons physical rest inductionHypothesis =>
    have behind : ∀ offset, renumber (number + 1 + offset) = other + 1 + offset := by
      intro offset
      rw [Nat.add_assoc, onwards, Nat.add_assoc]
    have here : extended other (pending.map (.renumbered renumber)) physical =
        (extended number pending physical).renumbered renumber := by
      cases pending with
      | none => exact congrArg (LogicalLine.mk · _) (onwards 0).symm
      | some _ => rfl
    have closed := inductionHypothesis behind none
    have further := inductionHypothesis behind (some (extended number pending physical))
    rw [joinLines_cons, joinLines_cons, Option.isNone_map, here]
    split
    · exact closed
    · split
      · exact further
      · exact congrArg _ closed

theorem joinLines_moved (number distance : Nat) (pending : Option LogicalLine)
    (lines : List (List Char)) :
    joinLines (number + distance) (pending.map (.moved distance)) lines =
      (joinLines number pending lines).map (.moved distance) :=
  joinLines_renumbered (· + distance) (fun _ => Nat.add_right_comm _ _ _) pending lines

/-- A logical line begins on one of the physical lines, with the given logical lines before it. No
entry is open in front of that line, which is no comment, and its number is that of the entry. -/
def Begins (number : Nat) (pending : Option LogicalLine) (lines : List (List Char))
    (before : List LogicalLine) (line : LogicalLine) : Prop :=
  ∃ front physical back, lines = front ++ physical :: back ∧
    front.foldl carries pending.isSome = false ∧
    isSkipped (Text.trimStart physical) = false ∧ joinLines number pending front = before ∧
    line.number = number + front.length

theorem Begins.here {number : Nat} {physical : List Char} {rest : List (List Char)}
    {line : LogicalLine} (entry : isSkipped (Text.trimStart physical) = false)
    (same : line.number = number) : Begins number none (physical :: rest) [] line :=
  ⟨[], physical, rest, rfl, rfl, entry, rfl, same⟩

/-- One more physical line in front, which leaves the pending line `next` and finishes the lines
`done`. -/
theorem Begins.later {number : Nat} {pending next : Option LogicalLine} {physical : List Char}
    {rest : List (List Char)} {before : List LogicalLine} {line : LogicalLine}
    (done : List LogicalLine)
    (begins : Begins (number + 1) next rest before line)
    (carried : carries pending.isSome physical = next.isSome)
    (joins : ∀ others, joinLines number pending (physical :: others) =
      done ++ joinLines (number + 1) next others) :
    Begins number pending (physical :: rest) (done ++ before) line := by
  obtain ⟨front, first, back, rfl, finished, entry, collected, same⟩ := begins
  refine ⟨physical :: front, first, back, rfl, ?_, entry, ?_, ?_⟩
  · rw [List.foldl_cons, carried]
    exact finished
  · rw [joins, collected]
  · rw [same, List.length_cons, Nat.add_assoc, Nat.add_comm 1]

/-- Every logical line is the pending one or begins on a physical line of its own. -/
theorem begins_of_joinLines {number : Nat} {pending : Option LogicalLine}
    {lines : List (List Char)} {before : List LogicalLine} {line : LogicalLine}
    {after : List LogicalLine}
    (split : joinLines number pending lines = before ++ line :: after) :
    (before = [] ∧ ∃ begun, pending = some begun ∧ line.number = begun.number) ∨
      Begins number pending lines before line := by
  induction lines generalizing number pending before with
  | nil =>
    left
    cases pending with
    | none => simp [joinLines] at split
    | some begun =>
      cases before with
      | nil => exact ⟨rfl, begun, rfl, congrArg LogicalLine.number (List.cons.inj split).1.symm⟩
      | cons first others => simp [joinLines] at split
  | cons physical rest inductionHypothesis =>
    -- A line that this physical line extends is pending, or begins here.
    have begun (entry : pending = none → isSkipped (Text.trimStart physical) = false)
        (same : line.number = (extended number pending physical).number) :
        (([] : List LogicalLine) = [] ∧
          ∃ begun, pending = some begun ∧ line.number = begun.number) ∨
          Begins number pending (physical :: rest) [] line := by
      cases pending with
      | none => exact .inr (.here (entry rfl) same)
      | some begun => exact .inl ⟨rfl, begun, rfl, same⟩
    cases joins number pending physical with
    | skipped _ carried joins =>
      rw [joins] at split
      rcases inductionHypothesis split with ⟨-, _, ⟨⟩, -⟩ | begins
      exact .inr (begins.later [] carried joins)
    | continued entry carried joins =>
      rw [joins] at split
      rcases inductionHypothesis split with ⟨rfl, _, ⟨⟩, same⟩ | begins
      · exact begun entry same
      · exact .inr (begins.later [] carried joins)
    | finished entry carried joins =>
      rw [joins] at split
      cases before with
      | nil => exact begun entry (congrArg LogicalLine.number (List.cons.inj split).1.symm)
      | cons first others =>
        obtain ⟨rfl, behind⟩ := List.cons.inj split
        rcases inductionHypothesis behind with ⟨-, _, ⟨⟩, -⟩ | begins
        exact .inr (begins.later [_] carried joins)

/-! ### Logical lines and entries -/

theorem logicalLines_append {front : List Char} (closed : Closed front) (back : List Char) :
    logicalLines (front ++ back) =
      logicalLines front ++ (logicalLines back).map (.moved (front.count '\n')) := by
  rw [logicalLines, physicalLines_append closed.wholeLines,
    @joinLines_append 1 none _ closed.finished, length_physicalLines closed.wholeLines,
    logicalLines, logicalLines, ← joinLines_moved]
  rfl

/-- In front of a logical line the text is complete, and behind that the line is the first one, on
the first physical line. -/
theorem split_logicalLines {text : List Char} {before : List LogicalLine} {line : LogicalLine}
    {after : List LogicalLine} (split : logicalLines text = before ++ line :: after) :
    ∃ front back, text = front ++ back ∧ Closed front ∧ logicalLines front = before ∧
      line.number = front.count '\n' + 1 ∧ (logicalLines back).head? = some ⟨1, line.text⟩ := by
  rcases begins_of_joinLines split with ⟨-, _, ⟨⟩, -⟩ | begins
  obtain ⟨first, physical, rest, lines, finished, -, collected, number⟩ := begins
  obtain ⟨front, back, rfl, whole, frontLines, -⟩ := split_physicalLines lines
  have closed : Closed front := ⟨whole.ends, frontLines ▸ finished⟩
  have sameBefore : logicalLines front = before := by
    rw [logicalLines, frontLines, collected]
  have count : first.length = front.count '\n' := by
    rw [← length_physicalLines whole, frontLines]
  refine ⟨front, back, rfl, closed, sameBefore, ?_, ?_⟩
  · rw [number, count, Nat.add_comm]
  · rw [logicalLines_append closed, sameBefore] at split
    have later := List.append_cancel_left split
    cases behind : logicalLines back with
    | nil => simp [behind] at later
    | cons head others =>
      rw [behind] at later
      have same : head.moved (front.count '\n') = line := (List.cons.inj later).1
      have first : head.number = 1 := by
        have sum : head.number + front.count '\n' = 1 + front.count '\n' := by
          rw [← count, ← number, ← same, count]
          rfl
        exact Nat.add_right_cancel sum
      rw [List.head?_cons, ← first, ← same]
      rfl

end Properties

end ConnectorSettings
