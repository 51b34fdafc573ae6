/-
This file proves that a settings map goes through JSON and back unchanged, and what is read from any
other record of texts.

The texts that denote a record of texts are the spellings of that record in the grammar, no more and
no fewer. Both directions follow how the reader goes along: it reads a member, which is a name and a
value with blanks around each, and then there is a comma and the next one, or the closing brace. The
bound on its calls is no obstacle, since a record has fewer members than characters.

What is read is then the map that the members leave when they are written one after the other. A map
writes itself as the record of its entries, whose names are distinct, so nothing is lost on the way.
-/

import ConnectorSettings.Proofs.JsonSpelling
import ConnectorSettings.Proofs.Merging
import ConnectorSettings.SettingsMap.Json

namespace ConnectorSettings

namespace Json

/-! ### Blanks -/

theorem isBlank_iff {char : Char} : isBlank char = true ↔ char ∈ [' ', '\t', '\n', '\r'] := by
  simp [isBlank, or_assoc]

theorem AreBlanks.all {blanks : List Char} (blank : AreBlanks blanks) :
    ∀ char ∈ blanks, isBlank char = true :=
  fun char member => isBlank_iff.mpr (blank char member)

/-- What the reader skips is blank, and it goes on with what is left. -/
theorem exists_blanks_append (text : List Char) :
    ∃ blanks, AreBlanks blanks ∧ text = blanks ++ skipBlanks text :=
  ⟨text.takeWhile isBlank, fun _ member => isBlank_iff.mp (List.mem_takeWhile_imp member),
    List.takeWhile_append_dropWhile.symm⟩

/-! ### Quoted texts -/

/-- A quoted text is read behind its opening quote, and only blanks are left before what follows. -/
theorem SpellsQuoted.exists_readText {value : String} {written : List Char}
    (spelled : SpellsQuoted value written) (tail : List Char) :
    ∃ text rest, skipBlanks (written ++ tail) = '\x22' :: text ∧
      readText text = some (value.toList, rest) ∧ skipBlanks rest = skipBlanks tail := by
  cases spelled with
  | @quoted inside _ spelledInside spaced =>
    cases spaced with
    | @around before after blankBefore blankAfter =>
      refine ⟨inside ++ '\x22' :: (after ++ tail), after ++ tail, ?_,
        spelledInside.readText_append _, skipBlanks_append blankAfter.all tail⟩
      rw [List.append_assoc, skipBlanks_append blankBefore.all]
      simpa using skipBlanks_of_not_isBlank rfl _

/-- A quoted text and the sign behind it are all that stands before the rest. -/
theorem exists_spellsQuoted {input text rest next value : List Char} {sign : Char}
    (opened : skipBlanks input = '\x22' :: text) (read : readText text = some (value, rest))
    (followed : skipBlanks rest = sign :: next) :
    ∃ written, SpellsQuoted (String.ofList value) written ∧ input = written ++ sign :: next := by
  obtain ⟨before, blankBefore, input_eq⟩ := exists_blanks_append input
  obtain ⟨after, blankAfter, rest_eq⟩ := exists_blanks_append rest
  obtain ⟨inside, spelled, text_eq⟩ := exists_spellsText_of_readText read
  rw [← String.toList_ofList (l := value)] at spelled
  refine ⟨_, .quoted spelled (.around blankBefore blankAfter), ?_⟩
  rw [input_eq, opened, text_eq, rest_eq, followed]
  simp

/-- As a value, it is read in the same way. -/
theorem SpellsQuoted.exists_readValue {value : String} {written : List Char}
    (spelled : SpellsQuoted value written) (bound : Nat) (tail : List Char) :
    ∃ rest, readValue (bound + 1) (written ++ tail) = some (text value, rest) ∧
      skipBlanks rest = skipBlanks tail := by
  obtain ⟨inside, rest, opened, read, followed⟩ := spelled.exists_readText tail
  refine ⟨rest, ?_, followed⟩
  rw [readValue, opened]
  simp [read]

theorem exists_readText_of_readValue {bound : Nat} {input rest : List Char} {value : String}
    (read : readValue bound input = some (text value, rest)) :
    ∃ inside chars, skipBlanks input = '\x22' :: inside ∧ readText inside = some (chars, rest) ∧
      value = String.ofList chars := by
  cases bound with
  | zero => cases read
  | succ bound =>
    rw [readValue] at read
    split at read
    · next inside opened =>
      obtain ⟨⟨chars, rest⟩, readInside, same⟩ := Option.map_eq_some_iff.mp read
      cases same
      exact ⟨inside, chars, opened, readInside, rfl⟩
    · split at read <;> simp at read
    · split at read <;> simp at read
    all_goals simp at read

/-! ### Members -/

/-- A name and a value are read off the front of the input. -/
inductive ReadsMember (bound : Nat) (input : List Char) : String → Json → List Char → Prop
  | member {inside name behindName behindColon rest : List Char} {value : Json}
      (opened : skipBlanks input = '\x22' :: inside)
      (readName : readText inside = some (name, behindName))
      (colon : skipBlanks behindName = ':' :: behindColon)
      (readValue : readValue bound behindColon = some (value, rest)) :
      ReadsMember bound input (String.ofList name) value rest

/-- Members are read one by one: behind a member stands the next one, or the closing brace. -/
theorem readMembers_succ_eq_some_iff {bound : Nat} {input rest : List Char}
    {members : List (String × Json)} :
    readMembers (bound + 1) input = some (members, rest) ↔
      ∃ name value behind others, ReadsMember bound input name value behind ∧
        members = (name, value) :: others ∧
        ((∃ next, skipBlanks behind = ',' :: next ∧
            readMembers bound next = some (others, rest)) ∨
          (others = [] ∧ skipBlanks behind = '\x7d' :: rest)) := by
  constructor
  · intro read
    rw [readMembers] at read
    split at read
    · next inside opened =>
      split at read
      · cases read
      · next name behindName readName =>
        split at read
        · next behindColon colon =>
          split at read
          · cases read
          · next value behind readValue =>
            have member : ReadsMember bound input (String.ofList name) value behind :=
              .member opened readName colon readValue
            split at read
            · next next comma =>
              obtain ⟨⟨others, rest⟩, readOthers, same⟩ := Option.map_eq_some_iff.mp read
              cases same
              exact ⟨_, _, _, others, member, rfl, .inl ⟨next, comma, readOthers⟩⟩
            · next next brace =>
              cases read
              exact ⟨_, _, _, [], member, rfl, .inr ⟨rfl, brace⟩⟩
            · cases read
        · cases read
    · cases read
  · rintro ⟨_, value, behind, others, ⟨opened, readName, colon, readValue⟩, rfl, followed⟩
    rw [readMembers]
    rcases followed with ⟨next, comma, readOthers⟩ | ⟨rfl, brace⟩
    · simp only [opened, readName, colon, readValue, comma, readOthers, Option.map_some]
    · simp only [opened, readName, colon, readValue, brace]

/-- A member is read from its spelling, and only blanks are left before what follows. -/
theorem SpellsQuoted.exists_readsMember {name value : String} {left right : List Char}
    (spelledName : SpellsQuoted name left) (spelledValue : SpellsQuoted value right) (bound : Nat)
    (tail : List Char) :
    ∃ behind, ReadsMember (bound + 1) (left ++ ':' :: (right ++ tail)) name (text value) behind ∧
      skipBlanks behind = skipBlanks tail := by
  obtain ⟨inside, rest, opened, readName, colon⟩ :=
    spelledName.exists_readText (':' :: (right ++ tail))
  obtain ⟨behind, readValue, followed⟩ := spelledValue.exists_readValue bound tail
  rw [skipBlanks_of_not_isBlank rfl] at colon
  have member := ReadsMember.member opened readName colon readValue
  rw [String.ofList_toList] at member
  exact ⟨behind, member, followed⟩

/-- A member that holds a text and the sign behind it are all that stands before the rest. -/
theorem ReadsMember.exists_spellsQuoted {bound : Nat} {input behind next : List Char}
    {name value : String} {sign : Char} (member : ReadsMember bound input name (text value) behind)
    (followed : skipBlanks behind = sign :: next) :
    ∃ left right, SpellsQuoted name left ∧ SpellsQuoted value right ∧
      input = left ++ ':' :: (right ++ sign :: next) := by
  obtain ⟨opened, readName, colon, readValue⟩ := member
  obtain ⟨inside, chars, openedValue, readChars, rfl⟩ := exists_readText_of_readValue readValue
  obtain ⟨left, spelledName, rfl⟩ := Json.exists_spellsQuoted opened readName colon
  obtain ⟨right, spelledValue, rfl⟩ := Json.exists_spellsQuoted openedValue readChars followed
  exact ⟨left, right, spelledName, spelledValue, rfl⟩

/-- One member or more are read from their spelling, up to the closing brace. -/
theorem SpellsMembers.readMembers_append {members : List (String × String)} {written : List Char}
    (spelled : SpellsMembers members written) {bound : Nat} (enough : members.length < bound)
    (tail : List Char) :
    readMembers bound (written ++ '\x7d' :: tail) = some (members.map textMember, tail) := by
  -- Reading the value of a member takes one more call than reading the member.
  induction spelled generalizing bound with
  | single spelledName spelledValue =>
    obtain ⟨bound, rfl⟩ : ∃ less, bound = less + 2 := ⟨bound - 2, by simp at enough; omega⟩
    obtain ⟨behind, member, brace⟩ :=
      spelledName.exists_readsMember spelledValue bound ('\x7d' :: tail)
    rw [skipBlanks_of_not_isBlank rfl] at brace
    rw [List.append_assoc, List.cons_append, readMembers_succ_eq_some_iff]
    exact ⟨_, _, behind, [], member, rfl, .inr ⟨rfl, brace⟩⟩
  | @cons name value left right rest others spelledName spelledValue _ inductionHypothesis =>
    obtain ⟨bound, rfl⟩ : ∃ less, bound = less + 2 := ⟨bound - 2, by simp at enough; omega⟩
    have readOthers := inductionHypothesis (Nat.lt_of_succ_lt_succ enough)
    obtain ⟨behind, member, comma⟩ :=
      spelledName.exists_readsMember spelledValue bound (',' :: (rest ++ '\x7d' :: tail))
    rw [skipBlanks_of_not_isBlank rfl] at comma
    simp only [List.append_assoc, List.cons_append]
    rw [readMembers_succ_eq_some_iff]
    exact ⟨_, _, behind, _, member, rfl, .inl ⟨_, comma, readOthers⟩⟩

/-- What has been read as members that hold texts was a spelling of them and a closing brace. -/
theorem exists_spellsMembers {members : List (String × String)} {bound : Nat}
    {input rest : List Char}
    (read : readMembers bound input = some (members.map textMember, rest)) :
    ∃ written, SpellsMembers members written ∧ input = written ++ '\x7d' :: rest := by
  induction bound generalizing input members with
  | zero => cases read
  | succ bound inductionHypothesis =>
    obtain ⟨_, _, behind, _, member, sameMembers, followed⟩ :=
      readMembers_succ_eq_some_iff.mp read
    obtain ⟨⟨name, value⟩, members, rfl, same, rfl⟩ := List.map_eq_cons_iff.mp sameMembers
    obtain ⟨rfl, rfl⟩ := Prod.mk.inj same
    rcases followed with ⟨next, comma, readOthers⟩ | ⟨none, brace⟩
    · obtain ⟨left, right, spelledName, spelledValue, rfl⟩ := member.exists_spellsQuoted comma
      obtain ⟨later, spelledOthers, rfl⟩ := inductionHypothesis readOthers
      exact ⟨_, .cons spelledName spelledValue spelledOthers, by simp⟩
    · obtain ⟨left, right, spelledName, spelledValue, rfl⟩ := member.exists_spellsQuoted brace
      obtain rfl := List.map_eq_nil_iff.mp none
      exact ⟨_, .single spelledName spelledValue, by simp⟩

theorem SpellsMembers.length_le {members : List (String × String)} {written : List Char}
    (spelled : SpellsMembers members written) : members.length ≤ written.length := by
  induction spelled with
  | single => simp; omega
  | cons _ _ _ inductionHypothesis =>
    simp only [List.length_cons, List.length_append]
    omega

/-! ### Records -/

theorem SpellsMembers.exists_quote {members : List (String × String)} {written : List Char}
    (spelled : SpellsMembers members written) (tail : List Char) :
    ∃ text, skipBlanks (written ++ tail) = '\x22' :: text := by
  cases spelled with
  | single spelledName | cons spelledName =>
    obtain ⟨text, -, opened, -⟩ := spelledName.exists_readText _
    exact ⟨text, by rwa [List.append_assoc]⟩

theorem readMembers_skipBlanks (bound : Nat) (text : List Char) :
    readMembers bound (skipBlanks text) = readMembers bound text := by
  obtain ⟨blanks, blank, split⟩ := exists_blanks_append text
  conv_rhs => rw [split, Json.readMembers_append blank.all]

theorem readValue_noMembers {blanks : List Char} (blank : AreBlanks blanks) (bound : Nat)
    (tail : List Char) :
    readValue (bound + 1) ('\x7b' :: (blanks ++ '\x7d' :: tail)) = some (textRecord [], tail) := by
  have closed : skipBlanks (blanks ++ '\x7d' :: tail) = '\x7d' :: tail := by
    rw [skipBlanks_append blank.all, skipBlanks_of_not_isBlank rfl]
  rw [readValue, skipBlanks_of_not_isBlank rfl]
  simp only [closed]
  rfl

theorem SpellsMembers.readValue_braces {members : List (String × String)} {written : List Char}
    (spelled : SpellsMembers members written) {bound : Nat} (enough : members.length < bound)
    (tail : List Char) :
    readValue (bound + 1) ('\x7b' :: (written ++ '\x7d' :: tail)) =
      some (textRecord members, tail) := by
  obtain ⟨text, begins⟩ := spelled.exists_quote ('\x7d' :: tail)
  rw [readValue_brace begins (by decide), ← begins, readMembers_skipBlanks,
    spelled.readMembers_append enough]
  rfl

/-- A record of texts is read up to its closing brace, and only blanks are left. -/
theorem SpellsRecord.exists_readValue {members : List (String × String)} {written : List Char}
    (spelled : SpellsRecord members written) {bound : Nat} (enough : written.length ≤ bound) :
    ∃ rest, AreBlanks rest ∧ readValue (bound + 1) written = some (textRecord members, rest) := by
  cases spelled with
  | empty blank spaced =>
    cases spaced with
    | around blankBefore blankAfter =>
      refine ⟨_, blankAfter, ?_⟩
      rw [readValue_append blankBefore.all]
      simpa using readValue_noMembers blank bound _
  | members spelledMembers spaced =>
    cases spaced with
    | around blankBefore blankAfter =>
      refine ⟨_, blankAfter, ?_⟩
      have fits := spelledMembers.length_le
      simp only [List.length_append, List.length_cons] at enough
      rw [readValue_append blankBefore.all]
      simpa using spelledMembers.readValue_braces (by omega) _

/-- A text denotes what is read at its beginning, if only blanks follow. -/
theorem parse?_eq_some_iff {text : String} {value : Json} :
    parse? text = some value ↔ ∃ rest, AreBlanks rest ∧
      readValue (2 * text.toList.length + 1) text.toList = some (value, rest) := by
  have allBlank (rest : List Char) : (skipBlanks rest).isEmpty = true ↔ AreBlanks rest := by
    simp [skipBlanks, AreBlanks, isBlank_iff]
  rw [parse?]
  constructor
  · intro parsed
    split at parsed
    · next value rest read =>
      split at parsed
      · next nothing =>
        cases parsed
        exact ⟨rest, (allBlank rest).mp nothing, read⟩
      · cases parsed
    · cases parsed
  · rintro ⟨rest, blank, read⟩
    simp only [read, (allBlank rest).mpr blank, if_true]

theorem readValue_eq_record {bound : Nat} {input rest : List Char} {members : List (String × Json)}
    (read : readValue bound input = some (.record members, rest)) :
    ∃ inside, skipBlanks input = '\x7b' :: inside ∧
      ((members = [] ∧ skipBlanks inside = '\x7d' :: rest) ∨
        ∃ less, readMembers less (skipBlanks inside) = some (members, rest)) := by
  cases bound with
  | zero => cases read
  | succ bound =>
    rw [readValue] at read
    split at read
    · simp at read
    · split at read <;> simp at read
    · next inside opened =>
      split at read
      · next rest closed =>
        cases read
        exact ⟨inside, opened, .inl ⟨rfl, closed⟩⟩
      · obtain ⟨⟨members, rest⟩, readMembers, same⟩ := Option.map_eq_some_iff.mp read
        cases same
        exact ⟨inside, opened, .inr ⟨bound, readMembers⟩⟩
    all_goals simp at read

/-- The texts that denote a record of texts are the spellings of that record. -/
theorem parse?_eq_textRecord_iff {members : List (String × String)} {text : String} :
    parse? text = some (textRecord members) ↔ SpellsRecord members text.toList := by
  rw [parse?_eq_some_iff]
  constructor
  · rintro ⟨after, blankAfter, read⟩
    obtain ⟨inside, opened, readInside⟩ := readValue_eq_record read
    obtain ⟨before, blankBefore, text_eq⟩ := exists_blanks_append text.toList
    rw [text_eq, opened]
    have inBraces (core : List Char) : InBlanks ('\x7b' :: (core ++ ['\x7d']))
        (before ++ '\x7b' :: (core ++ '\x7d' :: after)) := by
      have spaced : InBlanks ('\x7b' :: (core ++ ['\x7d'])) _ := .around blankBefore blankAfter
      simpa using spaced
    rcases readInside with ⟨none, closed⟩ | ⟨bound, readMembers⟩
    · obtain rfl := List.map_eq_nil_iff.mp none
      obtain ⟨blanks, blank, inside_eq⟩ := exists_blanks_append inside
      rw [inside_eq, closed]
      exact .empty blank (inBraces _)
    · rw [readMembers_skipBlanks] at readMembers
      obtain ⟨written, spelled, rfl⟩ := exists_spellsMembers readMembers
      exact .members spelled (inBraces _)
  · intro spelled
    exact spelled.exists_readValue (by omega)

end Json

namespace SettingsMap

/-- The grammar is decided by reading. -/
theorem spellsRecord_iff {members : List (String × String)} {text : String} :
    Json.SpellsRecord members text.toList ↔
      (Json.parse? text).bind textRecord? = some members := by
  simp only [← Json.parse?_eq_textRecord_iff, Option.bind_eq_some_iff, textRecord?_eq_some_iff,
    exists_eq_right]

instance (members : List (String × String)) (text : String) :
    Decidable (Json.SpellsRecord members text.toList) :=
  decidable_of_iff _ spellsRecord_iff.symm

/-- A map is read from the texts that spell a record, and it is what writing the record's members
one after the other leaves. -/
theorem ofJsonText?_eq_some_iff {text : String} {map : SettingsMap} :
    ofJsonText? text = some map ↔
      ∃ members, Json.SpellsRecord members text.toList ∧ ofList members = map := by
  have read : ofJsonText? text = ((Json.parse? text).bind textRecord?).map ofList := by
    rw [Option.map_bind]
    exact congrArg (Option.bind _) (funext ofJson?_eq)
  rw [read, Option.map_eq_some_iff]
  simp only [spellsRecord_iff]

theorem spellsRecord_toJsonText (map : SettingsMap) :
    Json.SpellsRecord map.entries map.toJsonText.toList :=
  Json.parse?_eq_textRecord_iff.mp (Json.parse?_compact map.toJson)

theorem ofJsonText?_toJsonText (map : SettingsMap) : ofJsonText? map.toJsonText = some map :=
  ofJsonText?_eq_some_iff.mpr ⟨map.entries, map.spellsRecord_toJsonText, map.ofList_entries⟩

/-- A map is read back from its own text, with its keys in their order. From any spelling of a
record of texts, whatever names it repeats, each name is read at the place where it first occurs and
with the value that it has last; and that map is read back too. -/
theorem json_round_trip :
    (∀ map : SettingsMap, Json.SpellsRecord map.entries map.toJsonText.toList ∧
      ofJsonText? map.toJsonText = some map) ∧
    ∀ (members : List (String × String)) (text : String),
      Json.SpellsRecord members text.toList →
        ∃ read, ofJsonText? text = some read ∧
          read.keys = (Entries.names members).eraseDups ∧
          (∀ key, read.get? key = Entries.lookup? key members.reverse) ∧
          ofJsonText? read.toJsonText = some read := by
  refine ⟨fun map => ⟨map.spellsRecord_toJsonText, map.ofJsonText?_toJsonText⟩,
    fun members text spelled => ?_⟩
  refine ⟨ofList members, ofJsonText?_eq_some_iff.mpr ⟨members, spelled, rfl⟩, ?_, fun key => ?_,
    ofJsonText?_toJsonText _⟩
  · exact keys_insertAll empty members
  · rw [ofList, get?_insertAll_last, get?_empty, Option.or_none]

/-- A name that occurs twice, with blanks between the signs and characters that are given by a
letter, by a number and by the two halves of a pair. -/
theorem json_round_trip_repeated_name :
    let members := [("a", "𝄞"), ("b", "A"), ("a", "/")]
    let text := " \x7b\"a\" :\"\\uD834\\udd1e\",\t\"b\":\"\\u0041\", \"a\": \"\\/\"\x7d\n"
    Json.SpellsRecord members text.toList ∧
      ∃ read, ofJsonText? text = some read ∧ read.keys = ["a", "b"] ∧
        read.get? "a" = some "/" ∧ read.get? "b" = some "A" ∧
        ofJsonText? read.toJsonText = some read := by
  intro members text
  have spelled : Json.SpellsRecord members text.toList := by decide +kernel
  obtain ⟨read, given, keys, values, again⟩ := json_round_trip.2 members text spelled
  refine ⟨spelled, read, given, ?_, ?_, ?_, again⟩
  · rw [keys]
    decide
  · rw [values]
    rfl
  · rw [values]
    rfl

end SettingsMap

end ConnectorSettings
