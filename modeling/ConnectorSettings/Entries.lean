/-
This file is about lists of named values, the raw material of every map in this library.

Writing a name that is present replaces its value and keeps its place; a new name goes to the end.
Looking a name up finds its first value. The lemmas say what writing and erasing do to the names
and to the value at a name, which is all that the maps built on such lists need to know.
-/

namespace ConnectorSettings

namespace Entries

variable {α : Type}

def names (entries : List (String × α)) : List String :=
  entries.map Prod.fst

/-- Replaces the value of a name where it stands, or appends the name at the end. -/
def write (name : String) (value : α) : List (String × α) → List (String × α)
  | [] => [(name, value)]
  | entry :: rest =>
    if entry.1 = name then (name, value) :: rest else entry :: write name value rest

def lookup? (name : String) : List (String × α) → Option α
  | [] => none
  | entry :: rest => if entry.1 = name then some entry.2 else lookup? name rest

def erase (name : String) (entries : List (String × α)) : List (String × α) :=
  entries.filter fun entry => entry.1 ≠ name

/-- `write`, and the value that it replaces. -/
def getThenWrite? (name : String) (value : α) :
    List (String × α) → Option α × List (String × α)
  | [] => (none, [(name, value)])
  | entry :: rest =>
    if entry.1 = name then (some entry.2, (name, value) :: rest)
    else
      let (replaced, written) := getThenWrite? name value rest
      (replaced, entry :: written)

/-- Takes the first entry of a name out, and gives its value. -/
def getThenErase? (name : String) : List (String × α) → Option α × List (String × α)
  | [] => (none, [])
  | entry :: rest =>
    if entry.1 = name then (some entry.2, rest)
    else
      let (taken, left) := getThenErase? name rest
      (taken, entry :: left)

/-! ### Writing -/

theorem names_write (name : String) (value : α) (entries : List (String × α)) :
    names (write name value entries) =
      if name ∈ names entries then names entries else names entries ++ [name] := by
  induction entries with
  | nil => simp [write, names]
  | cons entry rest inductionHypothesis =>
    simp only [names] at inductionHypothesis ⊢
    by_cases same : entry.1 = name
    · simp [write, same]
    · have other : ¬ name = entry.1 := fun equal => same equal.symm
      simp only [write, if_neg same, List.map_cons, inductionHypothesis, List.mem_cons, other,
        false_or]
      split <;> simp [*]

theorem nodup_names_write (name : String) (value : α) {entries : List (String × α)}
    (distinct : (names entries).Nodup) : (names (write name value entries)).Nodup := by
  rw [names_write]
  split
  · exact distinct
  · next absent =>
    refine List.nodup_append.mpr ⟨distinct, by simp, fun left member right single equal => ?_⟩
    rw [List.mem_singleton] at single
    exact absent (single ▸ equal ▸ member)

theorem lookup?_write (name other : String) (value : α) (entries : List (String × α)) :
    lookup? other (write name value entries) =
      if name = other then some value else lookup? other entries := by
  induction entries with
  | nil => simp [write, lookup?]
  | cons entry rest inductionHypothesis =>
    by_cases same : entry.1 = name
    · by_cases wanted : name = other <;> simp [write, lookup?, same, wanted]
    · by_cases wanted : name = other
      · have differs : ¬ entry.1 = other := fun equal => same (equal.trans wanted.symm)
        simp only [write, if_neg same, lookup?, if_neg differs, inductionHypothesis]
      · simp [write, lookup?, same, inductionHypothesis, wanted]

theorem lookup?_eq_none_iff (name : String) (entries : List (String × α)) :
    lookup? name entries = none ↔ name ∉ names entries := by
  induction entries with
  | nil => simp [lookup?, names]
  | cons entry rest inductionHypothesis =>
    simp only [names] at inductionHypothesis ⊢
    by_cases same : entry.1 = name
    · simp [lookup?, same]
    · have other : ¬ name = entry.1 := fun equal => same equal.symm
      simp [lookup?, same, inductionHypothesis, other]

theorem mem_of_lookup? {name : String} {value : α} {entries : List (String × α)}
    (found : lookup? name entries = some value) : (name, value) ∈ entries := by
  induction entries with
  | nil => cases found
  | cons entry rest inductionHypothesis =>
    rw [lookup?] at found
    by_cases same : entry.1 = name
    · rw [if_pos same] at found
      obtain rfl := Option.some.inj found
      exact same ▸ List.mem_cons_self
    · rw [if_neg same] at found
      exact List.mem_cons_of_mem _ (inductionHypothesis found)

/-! ### Erasing -/

theorem names_erase (name : String) (entries : List (String × α)) :
    names (erase name entries) = (names entries).filter fun other => other ≠ name := by
  simp only [names, erase, List.filter_map]
  rfl

theorem nodup_names_erase (name : String) {entries : List (String × α)}
    (distinct : (names entries).Nodup) : (names (erase name entries)).Nodup :=
  distinct.sublist (List.filter_sublist.map Prod.fst)

theorem erase_cons (name : String) (entry : String × α) (rest : List (String × α)) :
    erase name (entry :: rest) =
      if entry.1 = name then erase name rest else entry :: erase name rest := by
  by_cases same : entry.1 = name <;> simp [erase, same]

theorem lookup?_erase (name other : String) (entries : List (String × α)) :
    lookup? other (erase name entries) = if name = other then none else lookup? other entries := by
  induction entries with
  | nil => simp [lookup?, erase]
  | cons entry rest inductionHypothesis =>
    rw [erase_cons]
    by_cases same : entry.1 = name
    · rw [if_pos same, inductionHypothesis]
      by_cases wanted : name = other
      · simp [wanted]
      · have differs : ¬ entry.1 = other := fun equal => wanted (same.symm.trans equal)
        simp [wanted, lookup?, differs]
    · rw [if_neg same]
      by_cases wanted : name = other
      · have differs : ¬ entry.1 = other := fun equal => same (equal.trans wanted.symm)
        rw [if_pos wanted] at inductionHypothesis ⊢
        rw [lookup?, if_neg differs, inductionHypothesis]
      · simp [lookup?, inductionHypothesis, wanted]

/-! ### Answering with the earlier value -/

theorem getThenWrite?_eq (name : String) (value : α) (entries : List (String × α)) :
    getThenWrite? name value entries = (lookup? name entries, write name value entries) := by
  induction entries with
  | nil => rfl
  | cons entry rest inductionHypothesis =>
    rw [getThenWrite?, lookup?, write, inductionHypothesis]
    by_cases same : entry.1 = name
    · rw [if_pos same, if_pos same, if_pos same]
    · rw [if_neg same, if_neg same, if_neg same]

theorem erase_of_not_mem {name : String} {entries : List (String × α)}
    (absent : name ∉ names entries) : erase name entries = entries := by
  refine List.filter_eq_self.mpr fun entry member => ?_
  have differs : entry.1 ≠ name := fun same => absent (same ▸ List.mem_map_of_mem member)
  simp [differs]

/-- Where names are distinct, taking the first entry of a name out takes out all. -/
theorem getThenErase?_eq (name : String) {entries : List (String × α)}
    (distinct : (names entries).Nodup) :
    getThenErase? name entries = (lookup? name entries, erase name entries) := by
  induction entries with
  | nil => rfl
  | cons entry rest inductionHypothesis =>
    obtain ⟨fresh, distinct⟩ := List.nodup_cons.mp distinct
    rw [getThenErase?, lookup?, erase_cons, inductionHypothesis distinct]
    by_cases same : entry.1 = name
    · have absent : name ∉ names rest := fun member => fresh (same ▸ member)
      rw [if_pos same, if_pos same, if_pos same, erase_of_not_mem absent]
    · rw [if_neg same, if_neg same, if_neg same]

end Entries

end ConnectorSettings
