/-
This file cuts a text at every occurrence of a character and joins pieces again.

A text without the character is one piece, so there is always at least one, and joining the pieces
with the character gives the text back. A text can also be cut where a class of characters ends;
that is the library's `List.takeWhile` and `List.dropWhile`.
-/

namespace ConnectorSettings

namespace Text

/-- The pieces between the occurrences of a character. -/
def splitOn (separator : Char) : List Char → List (List Char)
  | [] => [[]]
  | char :: text =>
    if char = separator then [] :: splitOn separator text
    else
      match splitOn separator text with
      | [] => [[char]]
      | piece :: pieces => (char :: piece) :: pieces

/-- The part before the first occurrence of a character and the part after it. -/
def splitOnce? (separator : Char) : List Char → Option (List Char × List Char)
  | [] => none
  | char :: text =>
    if char = separator then some ([], text)
    else (splitOnce? separator text).map fun (before, after) => (char :: before, after)

/-- A text is split where the character occurs for the first time. -/
theorem splitOnce?_eq_some_iff {separator : Char} {text before after : List Char} :
    splitOnce? separator text = some (before, after) ↔
      text = before ++ separator :: after ∧ separator ∉ before := by
  induction text generalizing before with
  | nil => simp [splitOnce?]
  | cons char rest inductionHypothesis =>
    rw [splitOnce?]
    by_cases same : char = separator
    · rw [if_pos same]
      cases before with
      | nil => simp [same]
      | cons first others =>
        refine ⟨nofun, fun ⟨split, absent⟩ => ?_⟩
        -- The text begins with the character, so nothing can stand before it.
        have begins : char = first := (List.cons.inj split).1
        exact absurd (begins ▸ same ▸ List.mem_cons_self) absent
    · rw [if_neg same, Option.map_eq_some_iff]
      cases before with
      | nil =>
        constructor
        · rintro ⟨_, _, ⟨⟩⟩
        · rintro ⟨split, _⟩
          exact absurd (List.cons.inj split).1 same
      | cons first others =>
        constructor
        · rintro ⟨⟨_, _⟩, split, ⟨⟩⟩
          obtain ⟨rfl, absent⟩ := inductionHypothesis.mp split
          refine ⟨rfl, fun member => ?_⟩
          rcases List.mem_cons.mp member with equal | member
          · exact same equal.symm
          · exact absent member
        · rintro ⟨split, absent⟩
          obtain ⟨rfl, rfl⟩ := List.cons.inj split
          have later : separator ∉ others := fun member => absent (List.mem_cons_of_mem _ member)
          exact ⟨_, inductionHypothesis.mpr ⟨rfl, later⟩, rfl⟩

def joinWith (separator : List Char) (pieces : List (List Char)) : List Char :=
  separator.intercalate pieces

theorem splitOn_eq_listSplitOn (separator : Char) (text : List Char) :
    splitOn separator text = text.splitOn separator := by
  induction text with
  | nil => rfl
  | cons char rest inductionHypothesis =>
    rw [splitOn, List.splitOn_cons_eq_if_modifyHead, inductionHypothesis]
    by_cases same : char = separator
    · rw [if_pos same, if_pos (beq_iff_eq.mpr same)]
    · rw [if_neg same, if_neg (mt beq_iff_eq.mp same)]
      obtain ⟨piece, pieces, split⟩ :=
        List.exists_cons_of_ne_nil (List.splitOn_ne_nil separator rest)
      rw [split]
      rfl

theorem not_mem_of_mem_splitOn {separator : Char} {text piece : List Char}
    (member : piece ∈ splitOn separator text) : separator ∉ piece := by
  induction text generalizing piece with
  | nil =>
    rw [splitOn, List.mem_singleton] at member
    exact member ▸ List.not_mem_nil
  | cons char rest inductionHypothesis =>
    rw [splitOn] at member
    split at member
    · rcases List.mem_cons.mp member with rfl | later
      · exact List.not_mem_nil
      · exact inductionHypothesis later
    · next other =>
      split at member
      · rw [List.mem_singleton] at member
        subst member
        exact fun held => other (List.mem_singleton.mp held).symm
      · next first others split =>
        rw [split] at inductionHypothesis
        rcases List.mem_cons.mp member with rfl | later
        · exact List.not_mem_cons_of_ne_of_not_mem (Ne.symm other)
            (inductionHypothesis List.mem_cons_self)
        · exact inductionHypothesis (List.mem_cons_of_mem _ later)

/-- The pieces of a text are what has no separator in it and makes the text when it is joined. -/
theorem splitOn_eq_iff {separator : Char} {text : List Char} {pieces : List (List Char)} :
    splitOn separator text = pieces ↔
      joinWith [separator] pieces = text ∧ pieces ≠ [] ∧ ∀ piece ∈ pieces, separator ∉ piece := by
  constructor
  · rintro rfl
    refine ⟨?_, ?_, fun piece member => not_mem_of_mem_splitOn member⟩
    · rw [splitOn_eq_listSplitOn]
      exact List.intercalate_splitOn separator
    · rw [splitOn_eq_listSplitOn]
      exact List.splitOn_ne_nil separator text
  · rintro ⟨rfl, filled, apart⟩
    rw [splitOn_eq_listSplitOn]
    exact List.splitOn_intercalate separator apart filled

/-- A stretch of accepted characters ends where it is followed by none or by one that is refused. -/
theorem takeWhile_dropWhile_append {accepted : Char → Bool} {stretch rest : List Char}
    (accepts : ∀ char ∈ stretch, accepted char = true)
    (ends : ∀ char ∈ rest.head?, accepted char = false) :
    (stretch ++ rest).takeWhile accepted = stretch ∧
      (stretch ++ rest).dropWhile accepted = rest := by
  rw [List.takeWhile_append_of_pos accepts, List.dropWhile_append_of_pos accepts]
  cases rest with
  | nil => exact ⟨List.append_nil stretch, rfl⟩
  | cons char rest =>
    have refused : ¬ accepted char = true := Bool.eq_false_iff.mp (ends char rfl)
    rw [List.takeWhile_cons_of_neg refused, List.dropWhile_cons_of_neg refused]
    exact ⟨List.append_nil stretch, rfl⟩

end Text

end ConnectorSettings
