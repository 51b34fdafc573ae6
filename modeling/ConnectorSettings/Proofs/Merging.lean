/-
This file proves what is left after a run of writes into a settings map, and after merging maps one
after the other.

A map is known from its keys and from the value at a key. The value is the one that was written
last; a key stands where it first appeared, whatever is written to it later. Merging maps is one
long run of writes, and since the keys of a map are distinct, only whole maps have to be looked at
to find the last write.
-/

import ConnectorSettings.SettingsMap
import Mathlib.Data.List.Induction
import Mathlib.Data.List.Nodup

namespace ConnectorSettings

/-- A list whose items are distinct has nothing to erase. -/
theorem eraseDups_of_nodup {α : Type} [DecidableEq α] {items : List α} (distinct : items.Nodup) :
    items.eraseDups = items := by
  induction items with
  | nil => rfl
  | cons item rest inductionHypothesis =>
    obtain ⟨fresh, distinct⟩ := List.nodup_cons.mp distinct
    have kept : (rest.filter fun other => !other == item) = rest := by
      refine List.filter_eq_self.mpr fun other member => ?_
      have differs : other ≠ item := fun same => fresh (same ▸ member)
      simp [differs]
    rw [List.eraseDups_cons, kept, inductionHypothesis distinct]

/-- What has appeared before does not appear again for the first time. -/
theorem eraseDups_append_cons_of_mem {α : Type} [DecidableEq α] {items : List α} {item : α}
    (member : item ∈ items) (rest : List α) :
    (items ++ item :: rest).eraseDups = (items ++ rest).eraseDups := by
  rw [List.eraseDups_append, List.eraseDups_append]
  simp [List.removeAll, member]

theorem eraseDups_concat {α : Type} [DecidableEq α] (items : List α) (item : α) :
    (items ++ [item]).eraseDups =
      if item ∈ items then items.eraseDups else items.eraseDups ++ [item] := by
  rw [List.eraseDups_append]
  by_cases member : item ∈ items <;> simp [List.removeAll, List.eraseDups_cons, member]

/-- What stands twice in the later items may as well stand there once. -/
theorem eraseDups_append_eraseDups {α : Type} [DecidableEq α] (items later : List α) :
    (items ++ later.eraseDups).eraseDups = (items ++ later).eraseDups := by
  induction later using List.reverseRecOn with
  | nil => rfl
  | append_singleton before item inductionHypothesis =>
    rw [eraseDups_concat before]
    by_cases member : item ∈ before
    · rw [if_pos member, inductionHypothesis, ← List.append_assoc, eraseDups_concat,
        if_pos (List.mem_append_right _ member)]
    · have same : item ∈ items ++ before.eraseDups ↔ item ∈ items ++ before := by
        rw [List.mem_append, List.mem_append, List.mem_eraseDups]
      rw [if_neg member, ← List.append_assoc, ← List.append_assoc, eraseDups_concat,
        eraseDups_concat, inductionHypothesis]
      simp only [same]

namespace Entries

variable {α : Type}

/-- Entries are known from their names, if these are distinct, and from the value at a name. -/
theorem eq_of_lookup? {left right : List (String × α)} (sameNames : names left = names right)
    (distinct : (names left).Nodup)
    (sameValues : ∀ name ∈ names left, lookup? name left = lookup? name right) :
    left = right := by
  induction left generalizing right with
  | nil => exact (List.map_eq_nil_iff.mp sameNames.symm).symm
  | cons entry rest inductionHypothesis =>
    cases right with
    | nil => cases sameNames
    | cons other others =>
      obtain ⟨sameName, sameRest⟩ := List.cons.inj sameNames
      obtain ⟨fresh, distinct⟩ := List.nodup_cons.mp distinct
      have sameValue := sameValues entry.1 List.mem_cons_self
      rw [lookup?, lookup?, if_pos rfl, if_pos sameName.symm] at sameValue
      have sameEntry : entry = other := Prod.ext sameName (Option.some.inj sameValue)
      refine congrArg₂ List.cons sameEntry (inductionHypothesis sameRest distinct ?_)
      intro name member
      have differs : entry.1 ≠ name := fun same => fresh (same ▸ member)
      have later := sameValues name (List.mem_cons_of_mem _ member)
      rwa [lookup?, lookup?, if_neg differs, if_neg (sameName ▸ differs)] at later

theorem lookup?_append (name : String) (left right : List (String × α)) :
    lookup? name (left ++ right) = (lookup? name left).or (lookup? name right) := by
  induction left with
  | nil => rfl
  | cons entry rest inductionHypothesis =>
    by_cases same : entry.1 = name
    · simp [lookup?, same]
    · simp [lookup?, same, inductionHypothesis]

theorem lookup?_of_mem {entries : List (String × α)} {entry : String × α}
    (distinct : (names entries).Nodup) (member : entry ∈ entries) :
    lookup? entry.1 entries = some entry.2 := by
  induction entries with
  | nil => cases member
  | cons first rest inductionHypothesis =>
    obtain ⟨fresh, distinct⟩ := List.nodup_cons.mp distinct
    rw [lookup?]
    rcases List.mem_cons.mp member with rfl | later
    · rw [if_pos rfl]
    · have differs : first.1 ≠ entry.1 := fun same => fresh (same ▸ List.mem_map_of_mem later)
      rw [if_neg differs, inductionHypothesis distinct later]

theorem names_append (left right : List (String × α)) :
    names (left ++ right) = names left ++ names right :=
  List.map_append

/-- Where names are distinct, the first entry of a name is also the last. -/
theorem lookup?_reverse {entries : List (String × α)} (distinct : (names entries).Nodup)
    (name : String) : lookup? name entries.reverse = lookup? name entries := by
  induction entries with
  | nil => rfl
  | cons entry rest inductionHypothesis =>
    obtain ⟨fresh, distinct⟩ := List.nodup_cons.mp distinct
    rw [List.reverse_cons, lookup?_append, inductionHypothesis distinct]
    by_cases same : entry.1 = name
    · subst same
      simp [lookup?, (lookup?_eq_none_iff entry.1 rest).mpr fresh]
    · simp [lookup?, same]

/-- After a run of writes, the value of a name is the one that is written last, and the one from
before if none is. -/
theorem lookup?_foldl_write (name : String) (entries written : List (String × α)) :
    lookup? name (written.foldl (fun held entry => write entry.1 entry.2 held) entries) =
      (lookup? name written.reverse).or (lookup? name entries) := by
  induction written generalizing entries with
  | nil => rfl
  | cons entry rest inductionHypothesis =>
    rw [List.foldl_cons, inductionHypothesis, lookup?_write, List.reverse_cons, lookup?_append,
      Option.or_assoc]
    by_cases same : entry.1 = name <;> simp [lookup?, same]

theorem nodup_names_foldl_write {entries : List (String × α)} (distinct : (names entries).Nodup)
    (written : List (String × α)) :
    (names (written.foldl (fun held entry => write entry.1 entry.2 held) entries)).Nodup := by
  induction written generalizing entries with
  | nil => exact distinct
  | cons entry rest inductionHypothesis =>
    exact inductionHypothesis (nodup_names_write entry.1 entry.2 distinct)

end Entries

namespace SettingsMap

/-- The two views describe a map completely. -/
theorem ext_of_views {left right : SettingsMap} (sameKeys : left.keys = right.keys)
    (sameValues : ∀ key, left.get? key = right.get? key) : left = right :=
  SettingsMap.ext (Entries.eq_of_lookup? sameKeys left.distinct fun key _ => sameValues key)

theorem mem_entries_iff {map : SettingsMap} {key value : String} :
    (key, value) ∈ map.entries ↔ map.get? key = some value :=
  ⟨fun member => Entries.lookup?_of_mem map.distinct member, Entries.mem_of_lookup?⟩

theorem get?_of_mem_keys {map : SettingsMap} {key : String} (held : key ∈ map.keys) :
    ∃ value, map.get? key = some value := by
  by_contra none
  exact (map.get?_eq_none_iff key).mp (Option.eq_none_iff_forall_ne_some.mpr fun value found =>
    none ⟨value, found⟩) held

/-! ### A run of writes -/

theorem insertAll_append (map : SettingsMap) (left right : List (String × String)) :
    map.insertAll (left ++ right) = (map.insertAll left).insertAll right :=
  List.foldl_append

theorem entries_insertAll (map : SettingsMap) (pairs : List (String × String)) :
    (map.insertAll pairs).entries =
      pairs.foldl (fun held entry => Entries.write entry.1 entry.2 held) map.entries :=
  (List.foldl_hom SettingsMap.entries fun _ _ => rfl).symm

/-- The value at a key is the one that is written last, and the one from before if none is. -/
theorem get?_insertAll_last (map : SettingsMap) (pairs : List (String × String)) (key : String) :
    (map.insertAll pairs).get? key = (Entries.lookup? key pairs.reverse).or (map.get? key) := by
  rw [get?, entries_insertAll, Entries.lookup?_foldl_write, get?]

/-- Where no key is written twice, the order of the writes does not matter for the values. -/
theorem get?_insertAll (map : SettingsMap) {pairs : List (String × String)}
    (distinct : (Entries.names pairs).Nodup) (key : String) :
    (map.insertAll pairs).get? key = (Entries.lookup? key pairs).or (map.get? key) := by
  rw [get?_insertAll_last, Entries.lookup?_reverse distinct]

/-- The keys stand in the order in which they appeared for the first time. -/
theorem keys_insertAll (map : SettingsMap) (pairs : List (String × String)) :
    (map.insertAll pairs).keys = (map.keys ++ Entries.names pairs).eraseDups := by
  induction pairs generalizing map with
  | nil =>
    show map.keys = (map.keys ++ []).eraseDups
    rw [List.append_nil, eraseDups_of_nodup map.nodup_keys]
  | cons pair rest inductionHypothesis =>
    show ((map.insert pair.1 pair.2).insertAll rest).keys =
      (map.keys ++ pair.1 :: Entries.names rest).eraseDups
    rw [inductionHypothesis, keys_insert]
    by_cases member : pair.1 ∈ map.keys
    · rw [if_pos member, eraseDups_append_cons_of_mem member]
    · rw [if_neg member, List.append_assoc]
      rfl

/-- Writing entries with distinct keys puts the new ones behind those that were there. -/
theorem keys_insertAll_of_distinct (map : SettingsMap) {pairs : List (String × String)}
    (distinct : (Entries.names pairs).Nodup) :
    (map.insertAll pairs).keys =
      map.keys ++ (Entries.names pairs).filter fun key => key ∉ map.keys := by
  rw [keys_insertAll, List.eraseDups_append, eraseDups_of_nodup map.nodup_keys]
  have kept : ((Entries.names pairs).removeAll map.keys).Nodup := distinct.filter _
  rw [eraseDups_of_nodup kept]
  simp [List.removeAll]

/-! ### Merging -/

/-- The other map's value wins wherever it has one. -/
theorem get?_merge (map other : SettingsMap) (key : String) :
    (map.merge other).get? key = (other.get? key).or (map.get? key) :=
  get?_insertAll map other.distinct key

@[simp]
theorem empty_merge (map : SettingsMap) : empty.merge map = map := by
  refine ext_of_views ?_ fun key => ?_
  · show (empty.insertAll map.entries).keys = _
    rw [keys_insertAll, keys_empty, List.nil_append]
    exact eraseDups_of_nodup map.nodup_keys
  · rw [get?_merge, get?_empty, Option.or_none]

/-- A map is what its own entries are collected into. -/
theorem ofList_entries (map : SettingsMap) : ofList map.entries = map :=
  empty_merge map

/-- A map that was collected from pairs says as much as the pairs do, repeated keys and all. -/
theorem merge_ofList (map : SettingsMap) (pairs : List (String × String)) :
    map.merge (ofList pairs) = map.insertAll pairs := by
  refine ext_of_views ?_ fun key => ?_
  · show (map.insertAll (ofList pairs).entries).keys = _
    rw [keys_insertAll, keys_insertAll]
    show (map.keys ++ (empty.insertAll pairs).keys).eraseDups = _
    rw [keys_insertAll, keys_empty, List.nil_append, eraseDups_append_eraseDups]
  · rw [get?_merge, ofList, get?_insertAll_last, get?_insertAll_last, get?_empty, Option.or_none]

theorem ofList_append (left right : List (String × String)) :
    ofList (left ++ right) = (ofList left).merge (ofList right) := by
  rw [merge_ofList]
  exact insertAll_append empty left right

/-- Merging maps one after the other is writing all their entries in one run. -/
theorem foldl_merge (map : SettingsMap) (others : List SettingsMap) :
    others.foldl merge map = map.insertAll (others.flatMap entries) :=
  List.foldl_flatMap.symm

theorem names_flatMap_entries (maps : List SettingsMap) :
    Entries.names (maps.flatMap entries) = maps.flatMap keys :=
  List.map_flatMap

/-- After merging maps, the value at a key is that of the last map which has the key. -/
theorem get?_foldl_merge (map : SettingsMap) (others : List SettingsMap) (key : String) :
    (others.foldl merge map).get? key =
      (others.reverse.findSome? fun other => other.get? key).or (map.get? key) := by
  induction others generalizing map with
  | nil => rfl
  | cons other rest inductionHypothesis =>
    rw [List.foldl_cons, inductionHypothesis, get?_merge, List.reverse_cons,
      List.findSome?_append, Option.or_assoc, List.findSome?_singleton]

end SettingsMap

end ConnectorSettings
