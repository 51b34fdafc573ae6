/-
This file is about texts in which a backslash stands in front of every character that would end a
key or a line, or begin a comment. What a writer of properties text puts out is guarded in this way,
however many more backslashes it spends.

A guarded text is read off two characters at a time where there is a backslash. Each reader of a
line looks at backslashes and blanks for itself, and all of them agree on a guarded text: it is a
key up to its end, it begins no comment, nothing in it ends the line, and its backslashes do not
continue it, since each has a partner. So a line made of a guarded key, a separator and a guarded
value is one entry.

Only the carriage return needs care. It is a blank, so it may stand behind the separator, and where
no value follows it there it is taken for a part of the end of the line.
-/

import ConnectorSettings.Proofs.Composition
import ConnectorSettings.Properties.Writing

namespace ConnectorSettings

namespace Properties

/-! ### Guarded texts -/

inductive Guarded : List Char → Prop
  | nil : Guarded []
  | plain {char : Char} {text : List Char} (meaningless : hasMeaning char = false)
      (rest : Guarded text) : Guarded (char :: text)
  | pair {sign : Char} {text : List Char} (noFeed : sign ≠ '\n') (noReturn : sign ≠ '\r')
      (rest : Guarded text) : Guarded ('\\' :: sign :: text)

/-- A character without a meaning is none of those that a reader looks for. -/
structure Meaningless (char : Char) : Prop where
  noBackslash : char ≠ '\\'
  noComment : char ≠ '#' ∧ char ≠ '!'
  noSign : char ≠ '=' ∧ char ≠ ':'
  noBlank : Text.isBlank char = false

theorem meaningless_of_hasMeaning {char : Char} (none : hasMeaning char = false) :
    Meaningless char := by
  simp only [hasMeaning, List.contains_eq_mem, Bool.or_eq_false_iff, decide_eq_false_iff_not,
    List.mem_cons, List.not_mem_nil, or_false, not_or] at none
  obtain ⟨⟨backslash, equals, colon, hash, mark⟩, blank⟩ := none
  exact ⟨backslash, ⟨hash, mark⟩, ⟨equals, colon⟩, blank⟩

theorem Meaningless.endsKey {char : Char} (meaningless : Meaningless char) :
    endsKey char = false := by
  simp [Properties.endsKey, meaningless.noSign, meaningless.noBlank]

/-- No character of a guarded text ends a line. -/
theorem Guarded.ends_no_line {text : List Char} (guarded : Guarded text) :
    ∀ char ∈ text, char ≠ '\n' ∧ char ≠ '\r' := by
  have other : ∀ {char ending : Char}, hasMeaning char = false → hasMeaning ending = true →
      char ≠ ending := by
    rintro char ending meaningless meaning rfl
    exact Bool.false_ne_true (meaningless.symm.trans meaning)
  induction guarded with
  | nil => exact fun _ member => absurd member List.not_mem_nil
  | plain meaningless _ inductionHypothesis =>
    intro char member
    rcases List.mem_cons.mp member with rfl | later
    · exact ⟨other meaningless (by decide), other meaningless (by decide)⟩
    · exact inductionHypothesis char later
  | pair noFeed noReturn _ inductionHypothesis =>
    intro char member
    rcases List.mem_cons.mp member with rfl | later
    · decide
    · rcases List.mem_cons.mp later with rfl | later
      · exact ⟨noFeed, noReturn⟩
      · exact inductionHypothesis char later

/-- The first character is a backslash or has no meaning. -/
theorem Guarded.head? {text : List Char} (guarded : Guarded text) :
    ∀ char ∈ text.head?, char = '\\' ∨ Meaningless char := by
  cases guarded with
  | nil => exact nofun
  | plain meaningless _ =>
    rintro char ⟨⟩
    exact .inr (meaningless_of_hasMeaning meaningless)
  | pair _ _ _ =>
    rintro char ⟨⟩
    exact .inl rfl

theorem Guarded.isContinued_append {text : List Char} (guarded : Guarded text)
    (rest : List Char) : isContinued (text ++ rest) = isContinued rest := by
  induction guarded with
  | nil => rfl
  | plain meaningless _ inductionHypothesis =>
    rw [List.cons_append, isContinued_cons (meaningless_of_hasMeaning meaningless).noBackslash,
      inductionHypothesis]
  | pair _ _ _ inductionHypothesis =>
    rw [List.cons_append, List.cons_append, isContinued_pair, inductionHypothesis]

theorem splitKey_cons {char : Char} (other : char ≠ '\\') (text : List Char) :
    splitKey (char :: text) =
      if endsKey char then ([], char :: text)
      else (char :: (splitKey text).1, (splitKey text).2) := by
  rw [splitKey]
  exact fun _ _ same _ => other same

/-- A guarded text in front of something that ends a key is the key. -/
theorem Guarded.splitKey_append {text : List Char} (guarded : Guarded text) {tail : List Char}
    (ends : ∀ char ∈ tail.head?, endsKey char = true) :
    splitKey (text ++ tail) = (text, tail) := by
  induction guarded with
  | nil =>
    cases tail with
    | nil => rfl
    | cons char tail =>
      have end_ := ends char rfl
      have other : char ≠ '\\' := by
        rintro rfl
        revert end_
        decide
      rw [List.nil_append, splitKey_cons other, if_pos end_]
  | plain meaningless _ inductionHypothesis =>
    have none := meaningless_of_hasMeaning meaningless
    rw [List.cons_append, splitKey_cons none.noBackslash, none.endsKey, inductionHypothesis]
    rfl
  | pair _ _ _ inductionHypothesis =>
    rw [List.cons_append, List.cons_append, splitKey, inductionHypothesis]

/-! ### Separators -/

/-- Blanks, with at most one sign among them. -/
def Gap (gap : List Char) : Prop :=
  ∃ before separator after, gap = before ++ Separator.sign separator ++ after ∧
    (∀ char ∈ before, Text.isBlank char = true) ∧ ∀ char ∈ after, Text.isBlank char = true

theorem Gap.ends_key {gap : List Char} (isGap : Gap gap) :
    ∀ char ∈ gap.head?, endsKey char = true := by
  have blankEnds : ∀ char, Text.isBlank char = true → endsKey char = true := by
    intro char blank
    simp [endsKey, blank]
  obtain ⟨before, separator, after, rfl, beforeBlank, afterBlank⟩ := isGap
  intro char first
  cases before with
  | cons head _ =>
    cases first
    exact blankEnds _ (beforeBlank _ List.mem_cons_self)
  | nil =>
    cases separator with
    | equals | colon =>
      cases first
      decide
    | blanksOnly => exact blankEnds _ (afterBlank _ (List.mem_of_mem_head? first))

/-- A gap that ends in a blank is a gap without it, too. -/
theorem Gap.of_concat {gap : List Char} {last : Char} (isGap : Gap (gap ++ [last])) : Gap gap := by
  obtain ⟨before, separator, after, same, beforeBlank, afterBlank⟩ := isGap
  rcases List.eq_nil_or_concat' after with rfl | ⟨others, char, rfl⟩
  · cases separator with
    | equals | colon =>
      rw [List.append_nil] at same
      obtain ⟨rfl, -⟩ := List.append_singleton_inj.mp same
      exact ⟨gap, .blanksOnly, [], by simp [Separator.sign], beforeBlank, nofun⟩
    | blanksOnly =>
      obtain rfl : gap ++ [last] = before := by simpa [Separator.sign] using same
      refine ⟨gap, .blanksOnly, [], by simp [Separator.sign], fun char member => ?_, nofun⟩
      exact beforeBlank char (List.mem_append_left _ member)
  · rw [← List.append_assoc] at same
    obtain ⟨rfl, -⟩ := List.append_singleton_inj.mp same
    exact ⟨before, separator, others, rfl, beforeBlank, fun char member =>
      afterBlank char (List.mem_append_left _ member)⟩

/-- What stands behind a gap is found there if nothing in it could belong to the gap. -/
theorem Gap.dropSeparator_append {gap : List Char} (isGap : Gap gap) {text : List Char}
    (filled : ∀ char ∈ text.head?, char ≠ '=' ∧ char ≠ ':' ∧ Text.isBlank char = false) :
    dropSeparator (gap ++ text) = text := by
  obtain ⟨before, separator, after, rfl, beforeBlank, afterBlank⟩ := isGap
  have rest : Text.trimStart (after ++ text) = text := by
    rw [Text.trimStart_append_of_blank afterBlank]
    exact Text.trimStart_of_head? fun char first => (filled char first).2.2
  have start : Text.trimStart (before ++ separator.sign ++ after ++ text) =
      Text.trimStart (separator.sign ++ (after ++ text)) := by
    rw [List.append_assoc, List.append_assoc, Text.trimStart_append_of_blank beforeBlank]
  rw [dropSeparator, start]
  cases separator with
  | equals =>
    have sign : Text.trimStart ('=' :: (after ++ text)) = '=' :: (after ++ text) :=
      Text.trimStart_of_head? (by rintro char ⟨⟩; decide)
    simp only [Separator.sign, List.singleton_append, sign, rest]
  | colon =>
    have sign : Text.trimStart (':' :: (after ++ text)) = ':' :: (after ++ text) :=
      Text.trimStart_of_head? (by rintro char ⟨⟩; decide)
    simp only [Separator.sign, List.singleton_append, sign, rest]
  | blanksOnly =>
    simp only [Separator.sign, List.nil_append, rest]
    split
    · exact absurd rfl (filled '=' rfl).1
    · exact absurd rfl (filled ':' rfl).2.1
    · rfl

/-! ### Lines -/

/-- A line that begins with a backslash or with a character without a meaning has no blanks to
lose. -/
theorem trimStart_of_starts {line : List Char}
    (starts : ∀ char ∈ line.head?, char = '\\' ∨ Meaningless char) :
    Text.trimStart line = line := by
  refine Text.trimStart_of_head? fun char first => ?_
  rcases starts char first with rfl | meaningless
  · decide
  · exact meaningless.noBlank

/-- And it is neither blank nor a comment. -/
theorem isSkipped_of_starts {line : List Char} (filled : line ≠ [])
    (starts : ∀ char ∈ line.head?, char = '\\' ∨ Meaningless char) : isSkipped line = false := by
  cases line with
  | nil => exact absurd rfl filled
  | cons char rest =>
    rcases starts char rfl with rfl | meaningless
    · rfl
    · simp [isSkipped, meaningless.noComment]

/-- An entry as it stands in a line, both parts guarded. -/
structure Spelled (rawKey gap rawValue : List Char) : Prop where
  key : Guarded rawKey
  filled : rawKey ≠ []
  isGap : Gap gap
  value : Guarded rawValue
  parted : gap = [] → rawValue = []

theorem Spelled.head? {rawKey gap rawValue : List Char} (spelled : Spelled rawKey gap rawValue) :
    ∀ char ∈ (rawKey ++ gap ++ rawValue).head?, char = '\\' ∨ Meaningless char := by
  have first := spelled.key.head?
  have filled := spelled.filled
  cases rawKey with
  | nil => exact absurd rfl filled
  | cons _ _ => exact first

theorem Spelled.trimStart_append {rawKey gap rawValue : List Char}
    (spelled : Spelled rawKey gap rawValue) {indent : List Char}
    (blank : ∀ char ∈ indent, Text.isBlank char = true) :
    Text.trimStart (indent ++ (rawKey ++ gap ++ rawValue)) = rawKey ++ gap ++ rawValue := by
  rw [Text.trimStart_append_of_blank blank, trimStart_of_starts spelled.head?]

theorem Spelled.isSkipped {rawKey gap rawValue : List Char}
    (spelled : Spelled rawKey gap rawValue) :
    isSkipped (rawKey ++ gap ++ rawValue) = false := by
  refine isSkipped_of_starts (fun nothing => spelled.filled ?_) spelled.head?
  rw [List.append_eq_nil_iff, List.append_eq_nil_iff] at nothing
  exact nothing.1.1

theorem Gap.isContinued_append {gap : List Char} (isGap : Gap gap) (rest : List Char) :
    isContinued (gap ++ rest) = isContinued rest := by
  have none : ∀ char ∈ gap, char ≠ '\\' := by
    obtain ⟨before, separator, after, rfl, beforeBlank, afterBlank⟩ := isGap
    rintro char member rfl
    rcases List.mem_append.mp member with member | member
    · rcases List.mem_append.mp member with member | member
      · exact absurd (beforeBlank _ member) (by decide)
      · cases separator <;> simp [Separator.sign] at member
    · exact absurd (afterBlank _ member) (by decide)
  clear isGap
  induction gap with
  | nil => rfl
  | cons char gap inductionHypothesis =>
    rw [List.cons_append, isContinued_cons (none char List.mem_cons_self),
      inductionHypothesis fun other member => none other (List.mem_cons_of_mem _ member)]

theorem Spelled.isContinued {rawKey gap rawValue : List Char}
    (spelled : Spelled rawKey gap rawValue) :
    isContinued (rawKey ++ gap ++ rawValue) = false := by
  rw [List.append_assoc, spelled.key.isContinued_append, spelled.isGap.isContinued_append,
    ← List.append_nil rawValue, spelled.value.isContinued_append]
  rfl

/-- The two parts are read as what they stand for. -/
theorem Spelled.entry? {rawKey gap rawValue : List Char} (spelled : Spelled rawKey gap rawValue)
    {key value : List Char} (keyRead : decode? rawKey = some key) (named : key ≠ [])
    (valueRead : decode? rawValue = some value) :
    entry? (rawKey ++ gap ++ rawValue) = some (String.ofList key, String.ofList value) := by
  have ends : ∀ char ∈ (gap ++ rawValue).head?, endsKey char = true := by
    have gapEnds := spelled.isGap.ends_key
    have parted := spelled.parted
    cases gap with
    | nil =>
      rw [parted rfl]
      exact nofun
    | cons _ _ => exact gapEnds
  have found : dropSeparator (gap ++ rawValue) = rawValue := by
    refine spelled.isGap.dropSeparator_append fun char first => ?_
    rcases spelled.value.head? char first with rfl | meaningless
    · decide
    · exact ⟨meaningless.noSign.1, meaningless.noSign.2, meaningless.noBlank⟩
  rw [Properties.entry?, List.append_assoc, spelled.key.splitKey_append ends]
  simp [keyRead, valueRead, named, found, guard]

/-- The carriage return that is taken for a part of the end of the line comes out of the gap. -/
theorem Spelled.withoutReturn {rawKey gap rawValue : List Char}
    (spelled : Spelled rawKey gap rawValue) (indent : List Char) :
    ∃ rest, Spelled rawKey rest rawValue ∧
      withoutReturn (indent ++ (rawKey ++ gap ++ rawValue)) =
        indent ++ (rawKey ++ rest ++ rawValue) := by
  by_cases carriage : (indent ++ (rawKey ++ gap ++ rawValue)).getLast? = some '\r'
  · have inGuarded : ∀ {front text : List Char}, Guarded text → text ≠ [] →
        (front ++ text).getLast? ≠ some '\r' := by
      intro front text guarded filled last
      rw [List.getLast?_append_of_ne_nil _ filled] at last
      exact (guarded.ends_no_line _ (List.mem_of_getLast? last)).2 rfl
    have noValue : rawValue = [] := by
      by_contra filled
      rw [← List.append_assoc] at carriage
      exact inGuarded spelled.value filled carriage
    subst noValue
    rcases List.eq_nil_or_concat' gap with rfl | ⟨rest, last, rfl⟩
    · rw [List.append_nil, List.append_nil] at carriage
      exact absurd carriage (inGuarded spelled.key spelled.filled)
    · refine ⟨rest, ⟨spelled.key, spelled.filled, spelled.isGap.of_concat, .nil, fun _ => rfl⟩, ?_⟩
      rw [Properties.withoutReturn, if_pos carriage, List.append_nil, List.append_nil,
        ← List.append_assoc, ← List.append_assoc, List.dropLast_concat, List.append_assoc]
  · exact ⟨gap, spelled, by rw [Properties.withoutReturn, if_neg carriage]⟩

/-- A line that spells an entry, indented by blanks, is read as this entry alone. -/
theorem Spelled.entries_eq {rawKey gap rawValue : List Char}
    (spelled : Spelled rawKey gap rawValue) {indent : List Char}
    (blank : ∀ char ∈ indent, Text.isBlank char = true)
    (oneLine : '\n' ∉ indent ∧ '\n' ∉ gap) {key value : List Char}
    (keyRead : decode? rawKey = some key) (named : key ≠ [])
    (valueRead : decode? rawValue = some value) :
    let line := String.ofList (indent ++ (rawKey ++ gap ++ rawValue) ++ ['\n'])
    Closed line.toList ∧ entries line = .ok [(String.ofList key, String.ofList value)] := by
  intro line
  have whole : '\n' ∉ indent ++ (rawKey ++ gap ++ rawValue) := by
    simp only [List.mem_append, not_or]
    exact ⟨oneLine.1, ⟨fun member => (spelled.key.ends_no_line _ member).1 rfl, oneLine.2⟩,
      fun member => (spelled.value.ends_no_line _ member).1 rfl⟩
  obtain ⟨rest, kept, same⟩ := spelled.withoutReturn indent
  have lines : physicalLines (indent ++ (rawKey ++ gap ++ rawValue) ++ ['\n']) =
      [indent ++ (rawKey ++ rest ++ rawValue)] := by
    rw [physicalLines_line whole, same]
    rfl
  have trimmed := kept.trimStart_append blank
  have text : continuedBody (rawKey ++ rest ++ rawValue) = rawKey ++ rest ++ rawValue := by
    rw [continuedBody, kept.isContinued]
    rfl
  refine ⟨⟨.inr (by simp [line]), ?_⟩, ?_⟩
  · rw [String.toList_ofList, lines, leavesOpen, List.foldl_cons, carries, trimmed,
      kept.isContinued, Bool.and_false]
    rfl
  · rw [entries, String.toList_ofList, logicalLines, lines, joinLines_cons, trimmed,
      kept.isSkipped, kept.isContinued, extended, trimmed, text]
    show [LogicalLine.mk 1 (rawKey ++ rest ++ rawValue)].mapM entryOf = _
    rw [List.mapM_cons, entryOf, kept.entry? keyRead named valueRead]
    rfl

end Properties

end ConnectorSettings
