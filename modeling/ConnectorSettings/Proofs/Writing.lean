/-
This file proves that every map can be written as properties text: whatever pairs are written, with
whatever characters in them, and however the lines are laid out, reading gives the pairs back.

What is written is guarded, and decoding undoes the escapes character by character. A line that
begins with blanks may itself begin with blank lines, which are read as nothing, so the lines of a
text follow each other as texts of their own.
-/

import ConnectorSettings.Proofs.Guarded

namespace ConnectorSettings

namespace Properties

/-! ### Escapes -/

/-- The written forms of a character: itself, or a backslash and a character that stands for it. -/
inductive Form (char : Char) : List Char → Prop
  | plain (meaningless : hasMeaning char = false) : Form char [char]
  | pair {sign : Char} (stands : escapedChar sign = char) (noNumber : sign ≠ 'u')
      (noFeed : sign ≠ '\n') (noReturn : sign ≠ '\r') : Form char ['\\', sign]

/-- A character with a meaning is none of the letters that a backslash turns into something else. -/
theorem escapedChar_of_hasMeaning {char : Char} (meaning : hasMeaning char = true) :
    escapedChar char = char ∧ char ≠ 'u' := by
  have other : ∀ letter : Char, hasMeaning letter = false → char ≠ letter := by
    rintro letter meaningless rfl
    exact Bool.false_ne_true (meaningless.symm.trans meaning)
  refine ⟨?_, other 'u' (by decide)⟩
  unfold escapedChar
  split
  · exact absurd rfl (other 't' (by decide))
  · exact absurd rfl (other 'n' (by decide))
  · exact absurd rfl (other 'r' (by decide))
  · exact absurd rfl (other 'f' (by decide))
  · rfl

theorem form_escapedForm (char : Char) : Form char (escapedForm char) := by
  unfold escapedForm
  by_cases tab : char = '\t'
  · rw [if_pos tab]
    exact .pair tab.symm (by decide) (by decide) (by decide)
  by_cases feed : char = '\n'
  · rw [if_neg tab, if_pos feed]
    exact .pair feed.symm (by decide) (by decide) (by decide)
  by_cases carriage : char = '\r'
  · rw [if_neg tab, if_neg feed, if_pos carriage]
    exact .pair carriage.symm (by decide) (by decide) (by decide)
  by_cases page : char = '\x0c'
  · rw [if_neg tab, if_neg feed, if_neg carriage, if_pos page]
    exact .pair page.symm (by decide) (by decide) (by decide)
  rw [if_neg tab, if_neg feed, if_neg carriage, if_neg page]
  by_cases meaning : hasMeaning char = true
  · rw [if_pos meaning]
    obtain ⟨stands, noNumber⟩ := escapedChar_of_hasMeaning meaning
    exact .pair stands noNumber feed carriage
  · rw [if_neg meaning]
    exact .plain (Bool.eq_false_iff.mpr meaning)

theorem Form.guarded_append {char : Char} {written : List Char} (form : Form char written)
    {text : List Char} (rest : Guarded text) : Guarded (written ++ text) := by
  cases form with
  | plain meaningless => exact .plain meaningless rest
  | pair _ _ noFeed noReturn => exact .pair noFeed noReturn rest

theorem guarded_escaped (text : List Char) : Guarded (escaped text) := by
  induction text with
  | nil => exact .nil
  | cons char rest inductionHypothesis =>
    rw [escaped, List.flatMap_cons]
    exact (form_escapedForm char).guarded_append inductionHypothesis

theorem decode?_cons {char : Char} (other : char ≠ '\\') (text : List Char) :
    decode? (char :: text) = (decode? text).map (char :: ·) := by
  rw [decode?] <;> grind

theorem decode?_pair {sign : Char} (noNumber : sign ≠ 'u') (text : List Char) :
    decode? ('\\' :: sign :: text) = (decode? text).map (escapedChar sign :: ·) := by
  rw [decode?] <;> grind

/-- A written form is decoded as its character. -/
theorem Form.decode?_append {char : Char} {written : List Char} (form : Form char written)
    (text : List Char) : decode? (written ++ text) = (decode? text).map (char :: ·) := by
  cases form with
  | plain meaningless =>
    rw [List.singleton_append, decode?_cons (meaningless_of_hasMeaning meaningless).noBackslash]
  | pair stands noNumber _ _ =>
    rw [List.cons_append, List.singleton_append, decode?_pair noNumber, stands]

/-- Decoding undoes escaping. -/
theorem decode?_escaped (text : List Char) : decode? (escaped text) = some text := by
  induction text with
  | nil => rfl
  | cons char rest inductionHypothesis =>
    have later : decode? (rest.flatMap escapedForm) = some rest := inductionHypothesis
    rw [escaped, List.flatMap_cons, (form_escapedForm char).decode?_append, later]
    rfl

theorem escaped_ne_nil {text : List Char} (filled : text ≠ []) : escaped text ≠ [] := by
  intro nothing
  have decoded := decode?_escaped text
  rw [nothing] at decoded
  exact filled (Option.some.inj decoded).symm

/-! ### Written lines -/

namespace WrittenLine

theorem spelled (line : WrittenLine) :
    Spelled (escaped line.key.toList) line.gap (escaped line.value.toList) where
  key := guarded_escaped _
  filled := escaped_ne_nil fun nothing => line.named (String.toList_eq_nil_iff.mp nothing)
  isGap := ⟨line.before, line.separator, line.after, rfl,
    fun char member => (line.before_blank char member).1,
    fun char member => (line.after_blank char member).1⟩
  value := guarded_escaped _
  parted nothing := by
    simp only [gap, List.append_eq_nil_iff] at nothing
    obtain ⟨⟨before, sign⟩, after⟩ := nothing
    have none : line.separator = .blanksOnly := by
      cases same : line.separator <;> simp [same, Separator.sign] at sign ⊢
    exact absurd (by rw [before, after]; rfl) (line.parted none)

theorem feed_not_mem_gap (line : WrittenLine) : '\n' ∉ line.gap := by
  intro member
  rcases List.mem_append.mp member with member | member
  · rcases List.mem_append.mp member with member | member
    · exact (line.before_blank _ member).2 rfl
    · cases same : line.separator <;> simp [same, Separator.sign] at member
  · exact (line.after_blank _ member).2 rfl

/-- A written line in front of a text is one more entry in front of those of the text. -/
theorem entries_text_append (line : WrittenLine) {rest : String}
    {pairs : List (String × String)} (read : entries rest = .ok pairs) :
    entries (String.ofList line.text ++ rest) = .ok (line.pair :: pairs) := by
  obtain ⟨blanks, indent, leading, whole, noFeed⟩ := exists_wholeLines_append line.leading
  have blank : ∀ char ∈ blanks ++ indent, Text.isBlank char = true := leading ▸ line.leading_blank
  have silent : Silent (String.ofList blanks).toList := by
    rw [String.toList_ofList]
    exact silent_of_blank whole fun char member => blank char (List.mem_append_left _ member)
  have named : line.key.toList ≠ [] := fun nothing =>
    line.named (String.toList_eq_nil_iff.mp nothing)
  obtain ⟨closed, entry⟩ := line.spelled.entries_eq
    (fun char member => blank char (List.mem_append_right _ member))
    ⟨noFeed, line.feed_not_mem_gap⟩ (decode?_escaped _) named (decode?_escaped _)
  have parts : String.ofList line.text ++ rest = String.ofList blanks ++
      (String.ofList (indent ++ (escaped line.key.toList ++ line.gap ++
        escaped line.value.toList) ++ ['\n']) ++ rest) := by
    rw [text, leading, ← String.append_assoc, ← String.ofList_append]
    simp only [List.append_assoc]
  rw [parts, entries_append silent.closed, entries_of_silent silent, entries_append closed, entry,
    read]
  simp only [String.ofList_toList]
  rfl

end WrittenLine

/-! ### The round trip -/

theorem entries_write (lines : List WrittenLine) :
    entries (write lines) = .ok (lines.map WrittenLine.pair) := by
  induction lines with
  | nil => rfl
  | cons line rest inductionHypothesis =>
    have parts : write (line :: rest) = String.ofList line.text ++ write rest := by
      rw [write, List.flatMap_cons, String.ofList_append]
      rfl
    rw [parts, line.entries_text_append inductionHypothesis, List.map_cons]

/-- What is written is read back: the text is accepted, and gives exactly the map of the pairs. A
key has the value that was written last, and the keys stand in the order in which they first
appeared. So if the pairs are the entries of a map, it is this map. -/
theorem parse_write (lines : List WrittenLine) :
    let pairs := lines.map WrittenLine.pair
    ∃ map, parse (write lines) = .ok map ∧ map = SettingsMap.ofList pairs ∧
      (∀ key, map.get? key = Entries.lookup? key pairs.reverse) ∧
      map.keys = (Entries.names pairs).eraseDups ∧
      ∀ held : SettingsMap, held.toList = pairs → map = held := by
  intro pairs
  refine ⟨SettingsMap.ofList pairs, ?_, rfl, fun key => ?_, ?_, fun held same => ?_⟩
  · rw [parse_eq_map, entries_write]
    rfl
  · rw [SettingsMap.ofList, SettingsMap.get?_insertAll_last, SettingsMap.get?_empty,
      Option.or_none]
  · rw [SettingsMap.ofList, SettingsMap.keys_insertAll, SettingsMap.keys_empty, List.nil_append]
  · rw [← same]
    exact held.empty_merge

/-- A key like a comment, a value that ends in a backslash, and a carriage return for a
separator. -/
example : parse (write [⟨"#k", " v\\", ['\n', ' '], [], .blanksOnly, ['\r'],
    by decide, by simp [Text.isBlank], by simp, by simp [Text.isBlank], by decide⟩]) =
      .ok (.ofList [("#k", " v\\")]) := by
  decide

end Properties

end ConnectorSettings
