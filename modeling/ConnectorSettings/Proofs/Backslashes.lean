/-
This file proves that no backslash of a properties text is lost on the way to a key or value.
Decoding has a rule for a backslash that ends the text, which stands for nothing there, and this
rule is never used: what is decoded ends outside an escape.

Two readers look at backslashes, each in its own way. Joining counts those at the end of a physical
line. Cutting the key off goes through the joined line from its beginning and remembers whether the
next character is escaped. The count and the scan tell the same of every text, for one more
character at the end changes both alike. Each physical line gives an even number of backslashes to
the line it extends, so the joined line has an even number at its end, wherever it was broken, and
also where the text ends in place of a continuation. The key ends at a character that is not
escaped, and neither the key nor the separator changes the parity behind it, so the value ends as
the line does.

Decoding goes through key and value from their own beginnings. Where it goes on, it leaves the
parity at the end as it is, and so it never comes to a backslash alone.
-/

import ConnectorSettings.Proofs.Breaks
import ConnectorSettings.Proofs.Escapes

namespace ConnectorSettings

namespace Properties

/-! ### Scanning and counting -/

/-- Whether the character behind this one is escaped, given whether this one is. -/
def escapesNext (escaped : Bool) (char : Char) : Bool :=
  !escaped && char == '\\'

/-- Whether a text ends inside an escape, found by going through it from its beginning. -/
def endsEscaped (text : List Char) : Bool :=
  text.foldl escapesNext false

theorem isContinued_concat (text : List Char) (char : Char) :
    isContinued (text ++ [char]) = escapesNext (isContinued text) char := by
  unfold isContinued escapesNext
  rw [trailingBackslashes_append]
  by_cases backslash : char = '\\'
  · subst backslash
    have parity : ∀ count : Nat, ((1 + count) % 2 == 1) = !(count % 2 == 1) := by
      intro count
      rcases Nat.mod_two_eq_zero_or_one count with known | known <;> simp [Nat.add_mod, known]
    exact (parity _).trans (Bool.and_true _).symm
  · have none : trailingBackslashes [char] = 0 := by simp [trailingBackslashes, backslash]
    simp [none, backslash]

/-- The scan tells what the count tells. -/
theorem endsEscaped_eq_isContinued (text : List Char) : endsEscaped text = isContinued text := by
  induction text using List.reverseRecOn with
  | nil => rfl
  | append_singleton text char inductionHypothesis =>
    rw [isContinued_concat, ← inductionHypothesis, endsEscaped, endsEscaped, List.foldl_concat]

/-! ### Joined lines -/

/-- A continued line is an even one and the backslash that continues it. -/
theorem exists_of_isContinued {line : List Char} (continued : isContinued line = true) :
    ∃ front, line = front ++ ['\\'] ∧ continuedBody line = front ∧ isContinued front = false := by
  have body : continuedBody line = line.dropLast := if_pos continued
  rcases List.eq_nil_or_concat' line with rfl | ⟨front, last, rfl⟩
  · cases continued
  · rw [isContinued_concat, escapesNext, Bool.and_eq_true, Bool.not_eq_true', beq_iff_eq]
      at continued
    obtain ⟨even, rfl⟩ := continued
    exact ⟨front, rfl, body.trans List.dropLast_concat, even⟩

theorem isContinued_continuedBody (line : List Char) :
    isContinued (continuedBody line) = false := by
  by_cases continued : isContinued line = true
  · obtain ⟨front, -, body, even⟩ := exists_of_isContinued continued
    rw [body, even]
  · rw [continuedBody, if_neg continued]
    exact Bool.eq_false_iff.mpr continued

/-- A line stays even at its end when one more physical line extends it. -/
theorem isContinued_extended (number : Nat) {pending : Option LogicalLine}
    (even : ∀ line ∈ pending, isContinued line.text = false) (physical : List Char) :
    isContinued (extended number pending physical).text = false := by
  have front : isContinued (pending.getD ⟨number, []⟩).text = false := by
    cases pending with
    | none => rfl
    | some line => exact even line rfl
  rw [extended, isContinued_append front, isContinued_continuedBody]

theorem isContinued_of_mem_joinLines {number : Nat} {pending : Option LogicalLine}
    (even : ∀ line ∈ pending, isContinued line.text = false) (lines : List (List Char)) :
    ∀ line ∈ joinLines number pending lines, isContinued line.text = false := by
  induction lines generalizing number pending with
  | nil =>
    intro line member
    exact even line (Option.mem_toList.mp member)
  | cons physical rest inductionHypothesis =>
    have here := isContinued_extended number even physical
    have nothing : ∀ line ∈ (none : Option LogicalLine), isContinued line.text = false := nofun
    cases joins number pending physical with
    | skipped _ _ joins =>
      rw [joins]
      exact inductionHypothesis nothing
    | continued _ _ joins =>
      rw [joins]
      exact inductionHypothesis fun line pending => Option.mem_some.mp pending ▸ here
    | finished _ _ joins =>
      rw [joins]
      intro line member
      rcases List.mem_cons.mp member with rfl | later
      · exact here
      · exact inductionHypothesis nothing line later

/-- The physical lines that belong to entries, given whether an entry is open in front of the first.
Left out are the blank lines and comments between entries. -/
def entryLines : Bool → List (List Char) → List (List Char)
  | _, [] => []
  | isOpen, physical :: rest =>
    if !isOpen && isSkipped (Text.trimStart physical) then entryLines false rest
    else physical :: entryLines (isContinued (Text.trimStart physical)) rest

/-- What joining keeps of a physical line. -/
def joinedPart (physical : List Char) : List Char :=
  continuedBody (Text.trimStart physical)

/-- Beside the blanks in front, that is all but the backslash that continues a line. -/
theorem joinedPart_append (physical : List Char) :
    joinedPart physical ++ (if isContinued (Text.trimStart physical) then ['\\'] else []) =
      Text.trimStart physical := by
  unfold joinedPart
  by_cases continued : isContinued (Text.trimStart physical) = true
  · obtain ⟨front, line, body, -⟩ := exists_of_isContinued continued
    rw [if_pos continued, body, line]
  · rw [if_neg continued, continuedBody, if_neg continued, List.append_nil]

/-- Joining keeps these parts in their order. -/
theorem flatMap_joinLines (number : Nat) (pending : Option LogicalLine) (lines : List (List Char)) :
    (joinLines number pending lines).flatMap LogicalLine.text =
      pending.toList.flatMap LogicalLine.text ++
        (entryLines pending.isSome lines).flatMap joinedPart := by
  induction lines generalizing number pending with
  | nil => simp [joinLines, entryLines]
  | cons physical rest inductionHypothesis =>
    have here : (extended number pending physical).text =
        pending.toList.flatMap LogicalLine.text ++ joinedPart physical := by
      cases pending <;> simp [extended, joinedPart]
    rw [joinLines_cons, entryLines, Option.not_isSome]
    by_cases skipped : (pending.isNone && isSkipped (Text.trimStart physical)) = true
    · obtain ⟨closed, -⟩ := Bool.and_eq_true_iff.mp skipped
      obtain rfl := Option.isNone_iff_eq_none.mp closed
      rw [if_pos skipped, if_pos skipped, inductionHypothesis]
      rfl
    · rw [if_neg skipped, if_neg skipped, List.flatMap_cons, ← List.append_assoc, ← here]
      by_cases continued : isContinued (Text.trimStart physical) = true
      · rw [if_pos continued, inductionHypothesis, continued]
        simp
      · rw [if_neg continued, List.flatMap_cons, inductionHypothesis,
          Bool.eq_false_iff.mpr continued]
        rfl

/-! ### The parts of a line -/

/-- Cutting the key off loses nothing. -/
theorem rawKey_append (line : List Char) : rawKey line ++ (splitKey line).2 = line := by
  unfold rawKey
  induction line using splitKey.induct with
  | case1 => rfl
  | case2 sign text key rest split inductionHypothesis =>
    rw [splitKey, List.cons_append, List.cons_append, inductionHypothesis]
  | case3 char text noPair ends =>
    rw [splitKey, if_pos ends, List.nil_append]
    exact noPair
  | case4 char text noPair goesOn key rest split inductionHypothesis =>
    rw [splitKey, if_neg goesOn, List.cons_append, inductionHypothesis]
    exact noPair

/-- The character that ends a key is not escaped. -/
theorem isContinued_rawKey {line : List Char} (ended : (splitKey line).2 ≠ []) :
    isContinued (rawKey line) = false := by
  unfold rawKey
  induction line using splitKey.induct with
  | case1 => rfl
  | case2 sign text key rest split inductionHypothesis =>
    rw [splitKey] at ended ⊢
    rw [isContinued_pair, inductionHypothesis ended]
  | case3 char text noPair ends =>
    rw [splitKey, if_pos ends]
    · rfl
    · exact noPair
  | case4 char text noPair goesOn key rest split inductionHypothesis =>
    rw [splitKey, if_neg goesOn] at ended ⊢
    · have notAlone : text ≠ [] := by
        rintro rfl
        exact ended rfl
      have other := ne_backslash (fun _ nothing => notAlone nothing) noPair
      rw [isContinued_cons other, inductionHypothesis ended]
    · exact noPair
    · exact noPair

/-- Only blanks and one sign stand between a key and its value. -/
theorem exists_gap (text : List Char) : ∃ gap, text = gap ++ dropSeparator text ∧ Gap gap := by
  have blanks : ∀ text : List Char, ∀ char ∈ text.takeWhile Text.isBlank,
      Text.isBlank char = true := fun _ _ => List.mem_takeWhile_imp
  have parts : ∀ text : List Char, text = text.takeWhile Text.isBlank ++ Text.trimStart text :=
    fun _ => List.takeWhile_append_dropWhile.symm
  have signed : ∀ (separator : Separator) (rest : List Char),
      Text.trimStart text = separator.sign ++ rest →
        ∃ gap, text = gap ++ Text.trimStart rest ∧ Gap gap := by
    intro separator rest trimmed
    refine ⟨_, ?_, _, separator, _, rfl, blanks text, blanks rest⟩
    rw [List.append_assoc, List.append_assoc, ← parts rest, ← trimmed, ← parts text]
  unfold dropSeparator
  split
  · next rest trimmed => exact signed .equals rest trimmed
  · next rest trimmed => exact signed .colon rest trimmed
  · exact ⟨_, parts text, _, .blanksOnly, [], by simp [Separator.sign], blanks text, nofun⟩

/-- A line is its key, a gap and its value. -/
theorem exists_gap_between (line : List Char) :
    ∃ gap, line = rawKey line ++ gap ++ rawValue line ∧ Gap gap := by
  obtain ⟨gap, rest, isGap⟩ := exists_gap (splitKey line).2
  refine ⟨gap, ?_, isGap⟩
  rw [List.append_assoc, rawValue, ← rest, rawKey_append]

/-- Both parts of a line that ends in an even number of backslashes end so, too. -/
theorem isContinued_of_part {line : List Char} (even : isContinued line = false) :
    ∀ raw ∈ [rawKey line, rawValue line], isContinued raw = false := by
  have whole := rawKey_append line
  obtain ⟨gap, rest, isGap⟩ := exists_gap (splitKey line).2
  have valueEnd : isContinued (splitKey line).2 = isContinued (rawValue line) := by
    rw [rest, isGap.isContinued_append]
    rfl
  have both : isContinued (rawKey line) = false ∧ isContinued (rawValue line) = false := by
    by_cases ended : (splitKey line).2 = []
    · rw [ended, List.append_nil] at whole
      rw [ended] at valueEnd
      exact ⟨(congrArg isContinued whole).trans even, valueEnd.symm⟩
    · have key := isContinued_rawKey ended
      rw [← whole, isContinued_append key, valueEnd] at even
      exact ⟨key, even⟩
  intro raw isRaw
  rcases List.mem_pair.mp isRaw with rfl | rfl
  · exact both.1
  · exact both.2

/-! ### Decoding -/

/-- Decoding a text has given this much when it comes to the rest. It goes on in steps, each of
which takes a character or an escape and gives one character; at a malformed number it fails. -/
inductive DecodesUpTo : List Char → List Char → List Char → Prop
  | start (rest : List Char) : DecodesUpTo rest [] rest
  | plain {char : Char} {raw text rest : List Char} (other : char ≠ '\\')
      (onwards : DecodesUpTo raw text rest) : DecodesUpTo (char :: raw) (char :: text) rest
  | pair {sign : Char} {raw text rest : List Char} (noNumber : sign ≠ 'u')
      (onwards : DecodesUpTo raw text rest) :
      DecodesUpTo ('\\' :: sign :: raw) (escapedChar sign :: text) rest
  | number {a b c d char : Char} {raw text rest : List Char}
      (number : numberedChar? [a, b, c, d] = some char) (onwards : DecodesUpTo raw text rest) :
      DecodesUpTo ('\\' :: 'u' :: a :: b :: c :: d :: raw) (char :: text) rest

namespace DecodesUpTo

variable {raw text rest : List Char}

theorem decode?_eq (decodes : DecodesUpTo raw text rest) :
    decode? raw = (decode? rest).map (text ++ ·) := by
  induction decodes with
  | start rest => cases decode? rest <;> rfl
  | plain other _ inductionHypothesis =>
    rw [decode?_cons other, inductionHypothesis, Option.map_map]
    rfl
  | pair noNumber _ inductionHypothesis =>
    rw [decode?_pair noNumber, inductionHypothesis, Option.map_map]
    rfl
  | number number _ inductionHypothesis =>
    rw [decode?_number, number, inductionHypothesis, Option.bind_some, Option.map_map]
    rfl

/-- No step changes the parity at the end. -/
theorem isContinued_eq (decodes : DecodesUpTo raw text rest) :
    isContinued raw = isContinued rest := by
  induction decodes with
  | start => rfl
  | plain other _ inductionHypothesis => rw [isContinued_cons other, inductionHypothesis]
  | pair _ _ inductionHypothesis => rw [isContinued_pair, inductionHypothesis]
  | number number _ inductionHypothesis => rw [isContinued_number number, inductionHypothesis]

end DecodesUpTo

/-- Decoding succeeds if it comes to the end, or to a backslash that ends the text. -/
theorem decode?_eq_some_iff_decodesUpTo {raw text : List Char} :
    decode? raw = some text ↔ DecodesUpTo raw text [] ∨ DecodesUpTo raw text ['\\'] := by
  constructor
  · intro decoded
    induction raw using decode?.induct generalizing text with
    | case1 =>
      obtain rfl := Option.some.inj decoded
      exact .inl (.start [])
    | case2 =>
      obtain rfl := Option.some.inj decoded
      exact .inr (.start ['\\'])
    | case3 a b c d raw inductionHypothesis =>
      rw [decode?_number, Option.bind_eq_some_iff] at decoded
      obtain ⟨char, number, decoded⟩ := decoded
      obtain ⟨tail, read, rfl⟩ := Option.map_eq_some_iff.mp decoded
      exact (inductionHypothesis read).imp (.number number) (.number number)
    | case4 tail short =>
      rw [decode?] at decoded
      · cases decoded
      · exact short
    | case5 sign raw _ noNumber inductionHypothesis =>
      rw [decode?_pair noNumber] at decoded
      obtain ⟨tail, read, rfl⟩ := Option.map_eq_some_iff.mp decoded
      exact (inductionHypothesis read).imp (.pair noNumber) (.pair noNumber)
    | case6 char raw notAlone _ _ noPair inductionHypothesis =>
      have other := ne_backslash notAlone noPair
      rw [decode?_cons other] at decoded
      obtain ⟨tail, read, rfl⟩ := Option.map_eq_some_iff.mp decoded
      exact (inductionHypothesis read).imp (.plain other) (.plain other)
  · rintro (decodes | decodes)
    · exact decodes.decode?_eq.trans (congrArg some (List.append_nil text))
    · exact decodes.decode?_eq.trans (congrArg some (List.append_nil text))

/-- Other texts than those of a line do come to it. -/
example : decode? ['a', '\\'] = some ['a'] := rfl

/-! ### The law -/

/-- No backslash of the line is lost. They stand in pairs at its end. Nothing stands between key and
value that could be one, and both end outside an escape. So decoding them never comes to a backslash
alone, and what is decoded comes from characters and escapes that give one character each, up to the
end. -/
structure KeepsBackslashes (line : List Char) : Prop where
  paired : trailingBackslashes line % 2 = 0
  parted : ∃ gap, line = rawKey line ++ gap ++ rawValue line ∧ Gap gap
  outside : ∀ raw ∈ [rawKey line, rawValue line], endsEscaped raw = false
  unreached : ∀ raw ∈ [rawKey line, rawValue line], ∀ text, ¬ DecodesUpTo raw text ['\\']
  decoded : ∀ raw ∈ [rawKey line, rawValue line], ∀ text,
    decode? raw = some text ↔ DecodesUpTo raw text []

theorem keepsBackslashes_of_even {line : List Char} (even : isContinued line = false) :
    KeepsBackslashes line := by
  have evenPart := isContinued_of_part even
  have unreached : ∀ raw ∈ [rawKey line, rawValue line], ∀ text,
      ¬ DecodesUpTo raw text ['\\'] := by
    intro raw isRaw text decodes
    exact Bool.false_ne_true ((evenPart raw isRaw).symm.trans decodes.isContinued_eq)
  refine ⟨isContinued_eq_false_iff.mp even, exists_gap_between line, fun raw isRaw => ?_,
    unreached, fun raw isRaw text => ?_⟩
  · rw [endsEscaped_eq_isContinued, evenPart raw isRaw]
  · rw [decode?_eq_some_iff_decodesUpTo, or_iff_left (unreached raw isRaw text)]

/-- No backslash of a text is lost silently. Joining keeps the lines of entries in their order and
takes from each of them the blanks in front and, if it goes on in the next line, the backslash that
says so, also where the text ends in place of the next line. The lines that it gives keep their
backslashes. -/
theorem backslashes_kept (text : String) :
    (logicalLines text.toList).flatMap LogicalLine.text =
        (entryLines false (physicalLines text.toList)).flatMap joinedPart ∧
      (∀ physical, joinedPart physical ++
          (if isContinued (Text.trimStart physical) then ['\\'] else []) =
        Text.trimStart physical) ∧
      ∀ line ∈ logicalLines text.toList, KeepsBackslashes line.text := by
  have nothing : ∀ line ∈ (none : Option LogicalLine), isContinued line.text = false := nofun
  refine ⟨flatMap_joinLines 1 none _, joinedPart_append, fun line member => ?_⟩
  exact keepsBackslashes_of_even (isContinued_of_mem_joinLines nothing _ line member)

/-- Of three runs of three backslashes, the second of which is a line of its own and the third of
which the text cuts off, two backslashes each stay, and half of them are in the key and value. -/
theorem backslashes_kept_over_breaks :
    let text := "k\\\\\\\n  \\\\\\\r\n=v\\\\\\"
    let line : LogicalLine := ⟨1, "k\\\\\\\\=v\\\\".toList⟩
    line ∈ logicalLines text.toList ∧ KeepsBackslashes line.text ∧
      parse text = .ok (.ofList [("k\\\\", "v\\")]) := by
  intro text line
  have member : line ∈ logicalLines text.toList := by decide
  exact ⟨member, (backslashes_kept text).2.2 line member, by decide⟩

end Properties

end ConnectorSettings
