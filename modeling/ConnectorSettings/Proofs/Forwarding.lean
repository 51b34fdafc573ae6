/-
This file proves everything that stripping one map into another leaves behind: the value at every
key, the order of the keys, the number of keys that lost the ecosystem's name, and the log of the
values that were replaced.

Both passes are runs of writes, and no key is written twice in one of them, for the keys of the
source are distinct and forwarding keeps them so. So the second pass finds at each key what the
first pass left there, whatever it has already written itself, and the log can be read off the
source entry by entry. What ends up at a key is found by asking the source for two keys, so it does
not matter in which order the source holds them.
-/

import ConnectorSettings.Proofs.History
import ConnectorSettings.Proofs.Stripping
import Mathlib.Data.List.Nodup
import Mathlib.Tactic.Tauto

namespace ConnectorSettings

namespace SettingsMap

/-! ### Where a key goes -/

instance (ecosystem key : String) : Decidable (Forwards ecosystem key) :=
  decidable_of_iff ((forwarded? ecosystem key).isNone = false) <| by
    rw [← Bool.not_eq_true, Option.isNone_iff_eq_none, forwarded?_eq_none_iff, not_not]

/-- The key that a forwarded key becomes. The bare name becomes none. -/
def bare? (ecosystem key : String) : Option String :=
  (forwarded? ecosystem key).filter fun bare => bare ≠ ""

theorem bare?_eq_some_iff {ecosystem key bare : String} :
    bare? ecosystem key = some bare ↔ key = ecosystem ++ bare ∧ bare ≠ "" := by
  rw [bare?, Option.filter_eq_some_iff, forwarded?_eq_some_iff, decide_eq_true_eq]

theorem isSome_bare?_iff {ecosystem key : String} :
    (bare? ecosystem key).isSome = true ↔
      Forwards ecosystem key ∧ ecosystem.length < key.length := by
  have longer : ∀ bare : String, bare ≠ "" ↔ ecosystem.length < (ecosystem ++ bare).length := by
    intro bare
    rw [String.length_append, ne_eq, ← String.length_eq_zero_iff]
    omega
  simp only [Option.isSome_iff_exists, bare?_eq_some_iff]
  constructor
  · rintro ⟨bare, rfl, filled⟩
    exact ⟨⟨bare, rfl⟩, (longer bare).mp filled⟩
  · rintro ⟨⟨bare, rfl⟩, lengths⟩
    exact ⟨bare, rfl, (longer bare).mpr lengths⟩

/-- What the first pass leaves at a key. -/
def beneath (source : SettingsMap) (ecosystem : String) (target : SettingsMap) (key : String) :
    Option String :=
  if key ∈ source.keys ∧ ¬ Forwards ecosystem key then source.get? key else target.get? key

theorem beneath_eq_or (source : SettingsMap) (ecosystem : String) (target : SettingsMap)
    (key : String) : source.beneath ecosystem target key =
      (if (forwarded? ecosystem key).isNone then source.get? key else none).or
        (target.get? key) := by
  simp only [beneath, Option.isNone_iff_eq_none, forwarded?_eq_none_iff]
  by_cases direct : Forwards ecosystem key
  · rw [if_neg fun both => both.2 direct, if_neg (not_not.mpr direct), Option.none_or]
  · rw [if_pos direct]
    by_cases held : key ∈ source.keys
    · obtain ⟨value, found⟩ := get?_of_mem_keys held
      rw [if_pos ⟨held, direct⟩, found, Option.some_or]
    · rw [if_neg fun both => held both.1, (source.get?_eq_none_iff key).mpr held, Option.none_or]

/-! ### The second pass -/

/-- The entries that the second pass writes. -/
def forwardedEntries (ecosystem : String) (entries : List (String × String)) :
    List (String × String) :=
  entries.filterMap fun entry => (bare? ecosystem entry.1).map fun bare => (bare, entry.2)

/-- What the log says about an entry, if the map is what the entry finds. -/
def logged? (ecosystem : String) (map : SettingsMap) (entry : String × String) :
    Option (String × String) := do
  let bare ← bare? ecosystem entry.1
  let previous ← map.get? bare
  if previous = entry.2 then none else some (entry.1, bare)

theorem forward_of_bare {ecosystem : String} (progress : Stripping) {entry : String × String}
    {bare : String} (found : bare? ecosystem entry.1 = some bare) :
    progress.forward ecosystem entry = ⟨progress.map.insert bare entry.2, progress.remapped + 1,
      progress.overrides ++ (logged? ecosystem progress.map entry).toList⟩ := by
  obtain ⟨same, filled⟩ := bare?_eq_some_iff.mp found
  have kept : bare.isEmpty = false := by simp [filled]
  rw [Stripping.forward, forwarded?_eq_some_iff.mpr same, logged?, found]
  simp only [kept, Bool.false_eq_true, if_false, Option.bind_eq_bind, Option.bind_some]
  cases progress.map.get? bare with
  | none => simp
  | some previous => by_cases equal : previous = entry.2 <;> simp [equal]

theorem forward_of_none {ecosystem : String} (progress : Stripping) {entry : String × String}
    (none : bare? ecosystem entry.1 = none) : progress.forward ecosystem entry = progress := by
  rw [Stripping.forward]
  cases found : forwarded? ecosystem entry.1 with
  | none => rfl
  | some bare =>
    have nothing : bare = "" := by
      simpa [bare?, found, Option.filter_some] using none
    rw [nothing]
    rfl

theorem map_foldl_forward (ecosystem : String) (progress : Stripping)
    (entries : List (String × String)) :
    (entries.foldl (Stripping.forward ecosystem) progress).map =
      progress.map.insertAll (forwardedEntries ecosystem entries) := by
  induction entries generalizing progress with
  | nil => rfl
  | cons entry rest inductionHypothesis =>
    rw [List.foldl_cons, inductionHypothesis]
    cases found : bare? ecosystem entry.1 with
    | none =>
      rw [forward_of_none progress found]
      simp [forwardedEntries, found]
    | some bare =>
      rw [forward_of_bare progress found]
      simp [forwardedEntries, found, insertAll]

theorem remapped_foldl_forward (ecosystem : String) (progress : Stripping)
    (entries : List (String × String)) :
    (entries.foldl (Stripping.forward ecosystem) progress).remapped =
      progress.remapped + entries.countP fun entry => (bare? ecosystem entry.1).isSome := by
  induction entries generalizing progress with
  | nil => rfl
  | cons entry rest inductionHypothesis =>
    rw [List.foldl_cons, inductionHypothesis, List.countP_cons]
    cases found : bare? ecosystem entry.1 with
    | none => rw [forward_of_none progress found]; rfl
    | some bare =>
      rw [forward_of_bare progress found]
      exact Nat.add_right_comm _ _ _

/-- An entry that was written before does not change what a later one finds, for the two have
different keys. -/
theorem overrides_foldl_forward (ecosystem : String) (progress : Stripping)
    {entries : List (String × String)} (distinct : (Entries.names entries).Nodup) :
    (entries.foldl (Stripping.forward ecosystem) progress).overrides =
      progress.overrides ++ entries.filterMap (logged? ecosystem progress.map) := by
  induction entries generalizing progress with
  | nil => exact (List.append_nil _).symm
  | cons entry rest inductionHypothesis =>
    obtain ⟨fresh, distinct⟩ := List.nodup_cons.mp distinct
    rw [List.foldl_cons, inductionHypothesis _ distinct, List.filterMap_cons]
    cases found : bare? ecosystem entry.1 with
    | none =>
      have silent : logged? ecosystem progress.map entry = none := by
        rw [logged?, found]
        rfl
      rw [forward_of_none progress found, silent]
    | some bare =>
      have untouched : ∀ later ∈ rest, logged? ecosystem (progress.map.insert bare entry.2) later =
          logged? ecosystem progress.map later := by
        intro later member
        unfold logged?
        cases goes : bare? ecosystem later.1 with
        | none => rfl
        | some other =>
          have differs : bare ≠ other := by
            rintro rfl
            refine fresh ?_
            rw [(bare?_eq_some_iff.mp found).1, ← (bare?_eq_some_iff.mp goes).1]
            exact List.mem_map_of_mem member
          simp only [Option.bind_eq_bind, Option.bind_some, get?_insert, if_neg differs]
      rw [forward_of_bare progress found, List.filterMap_congr untouched, List.append_assoc]
      cases logged? ecosystem progress.map entry <;> rfl

/-! ### Both passes -/

/-- The entries that the first pass writes. -/
def directEntries (ecosystem : String) (entries : List (String × String)) :
    List (String × String) :=
  entries.filter fun entry => (forwarded? ecosystem entry.1).isNone

theorem names_directEntries (ecosystem : String) (entries : List (String × String)) :
    Entries.names (directEntries ecosystem entries) =
      (Entries.names entries).filter fun key => ¬ Forwards ecosystem key := by
  rw [Entries.names, Entries.names, directEntries, List.filter_map]
  refine congrArg _ (List.filter_congr fun entry _ => ?_)
  rw [Function.comp_apply, Bool.eq_iff_iff, Option.isNone_iff_eq_none, forwarded?_eq_none_iff,
    decide_eq_true_eq]

theorem names_forwardedEntries (ecosystem : String) (entries : List (String × String)) :
    Entries.names (forwardedEntries ecosystem entries) =
      (Entries.names entries).filterMap (bare? ecosystem) := by
  rw [Entries.names, Entries.names, forwardedEntries, List.map_filterMap, List.filterMap_map]
  refine List.filterMap_congr fun entry _ => ?_
  rw [Option.map_map]
  exact Option.map_id_apply

theorem stripInto_eq (source : SettingsMap) (ecosystem : String) (target : SettingsMap) :
    source.stripInto ecosystem target = source.entries.foldl (Stripping.forward ecosystem)
      ⟨target.insertAll (directEntries ecosystem source.entries), 0, []⟩ := rfl

/-- The first pass leaves at a key what the source has there directly, or else what was there. -/
theorem get?_insertAll_direct (source : SettingsMap) (ecosystem : String) (target : SettingsMap)
    (key : String) :
    (target.insertAll (directEntries ecosystem source.entries)).get? key =
      source.beneath ecosystem target key := by
  have distinct : (Entries.names (directEntries ecosystem source.entries)).Nodup := by
    rw [names_directEntries]
    exact source.distinct.filter _
  rw [get?_insertAll _ distinct, directEntries,
    Entries.lookup?_filter fun name => (forwarded? ecosystem name).isNone, beneath_eq_or]
  rfl

theorem get?_stripInto_eq_if (source : SettingsMap) (ecosystem : String) (target : SettingsMap)
    (key : String) :
    (source.stripInto ecosystem target).map.get? key =
      if key ≠ "" ∧ ecosystem ++ key ∈ source.keys then source.get? (ecosystem ++ key)
      else source.beneath ecosystem target key := by
  rw [get?_stripInto, ← beneath_eq_or]
  by_cases empty : key = ""
  · simp [empty]
  · by_cases held : ecosystem ++ key ∈ source.keys
    · obtain ⟨value, found⟩ := get?_of_mem_keys held
      rw [if_neg empty, if_pos ⟨empty, held⟩, found, Option.some_or]
    · rw [if_neg empty, if_neg fun both => held both.2, (source.get?_eq_none_iff _).mpr held,
        Option.none_or]

/-- The old keys keep their places. Behind them stand the new direct keys and then the new forwarded
ones, both in the order of the source. -/
theorem keys_stripInto (source : SettingsMap) (ecosystem : String) (target : SettingsMap) :
    (source.stripInto ecosystem target).map.keys = target.keys ++
      (source.keys.filter fun key => ¬ Forwards ecosystem key ∧ key ∉ target.keys) ++
      (source.keys.filterMap (bare? ecosystem)).filter fun key =>
        key ∉ target.keys ∧ ¬ (key ∈ source.keys ∧ ¬ Forwards ecosystem key) := by
  have directNames := names_directEntries ecosystem source.entries
  have forwardedNames := names_forwardedEntries ecosystem source.entries
  have directDistinct : (Entries.names (directEntries ecosystem source.entries)).Nodup :=
    directNames ▸ source.distinct.filter _
  have forwardedDistinct : (Entries.names (forwardedEntries ecosystem source.entries)).Nodup := by
    rw [forwardedNames]
    refine source.distinct.filterMap fun left right bare first second => ?_
    rw [(bare?_eq_some_iff.mp first).1, (bare?_eq_some_iff.mp second).1]
  rw [stripInto_eq, map_foldl_forward, keys_insertAll_of_distinct _ forwardedDistinct,
    keys_insertAll_of_distinct _ directDistinct, forwardedNames, directNames, List.filter_filter]
  refine congrArg₂ _ (congrArg _ (List.filter_congr fun key _ => ?_))
    (List.filter_congr fun key _ => ?_)
  · rw [Bool.decide_and, Bool.and_comm]
  · have inSource : ∀ name, name ∈ Entries.names source.entries ↔ name ∈ source.keys :=
      fun _ => Iff.rfl
    simp only [List.mem_append, List.mem_filter, Bool.and_eq_true, decide_eq_true_eq, inSource]
    refine decide_eq_decide.mpr ?_
    tauto

theorem remapped_stripInto (source : SettingsMap) (ecosystem : String) (target : SettingsMap) :
    (source.stripInto ecosystem target).remapped = source.keys.countP fun key =>
      Forwards ecosystem key ∧ ecosystem.length < key.length := by
  rw [stripInto_eq, remapped_foldl_forward, keys, Entries.names, List.countP_map, Nat.zero_add]
  refine List.countP_congr fun entry _ => ?_
  rw [isSome_bare?_iff, Function.comp_apply, decide_eq_true_eq]

/-! ### The log -/

theorem logged?_eq_some_iff {ecosystem : String} {map : SettingsMap} {entry : String × String}
    {key bare : String} : logged? ecosystem map entry = some (key, bare) ↔
      entry.1 = key ∧ key = ecosystem ++ bare ∧ bare ≠ "" ∧
        ∃ previous, map.get? bare = some previous ∧ previous ≠ entry.2 := by
  simp only [logged?, Option.bind_eq_bind, Option.bind_eq_some_iff, bare?_eq_some_iff,
    Option.ite_none_left_eq_some, Option.some.injEq, Prod.mk.injEq]
  constructor
  · rintro ⟨_, ⟨same, filled⟩, previous, found, differs, rfl, rfl⟩
    exact ⟨rfl, same, filled, previous, found, differs⟩
  · rintro ⟨rfl, same, filled, previous, found, differs⟩
    exact ⟨bare, ⟨same, filled⟩, previous, found, differs, rfl, rfl⟩

/-- The log names keys of the source in their order, each of them once. -/
theorem names_filterMap_logged_sublist (ecosystem : String) (map : SettingsMap)
    (entries : List (String × String)) :
    (Entries.names (entries.filterMap (logged? ecosystem map))).Sublist
      (Entries.names entries) := by
  induction entries with
  | nil => exact .slnil
  | cons entry rest inductionHypothesis =>
    rw [List.filterMap_cons]
    cases found : logged? ecosystem map entry with
    | none => exact inductionHypothesis.cons _
    | some pair =>
      have same : entry.1 = pair.1 := (logged?_eq_some_iff.mp found).1
      show (pair.1 :: Entries.names _).Sublist (entry.1 :: Entries.names rest)
      rw [same]
      exact inductionHypothesis.cons_cons pair.1

theorem overrides_stripInto (source : SettingsMap) (ecosystem : String) (target : SettingsMap) :
    (source.stripInto ecosystem target).overrides = source.entries.filterMap
      (logged? ecosystem (target.insertAll (directEntries ecosystem source.entries))) := by
  rw [stripInto_eq, overrides_foldl_forward ecosystem _ source.distinct, List.nil_append]

/-- A forwarded key is logged if its bare key held another value after the first pass. -/
theorem mem_overrides_iff {source : SettingsMap} {ecosystem : String} {target : SettingsMap}
    {key bare : String} : (key, bare) ∈ (source.stripInto ecosystem target).overrides ↔
      key = ecosystem ++ bare ∧ bare ≠ "" ∧ ∃ previous value,
        source.beneath ecosystem target bare = some previous ∧
          source.get? key = some value ∧ previous ≠ value := by
  simp only [overrides_stripInto, List.mem_filterMap, logged?_eq_some_iff,
    get?_insertAll_direct, ← mem_entries_iff]
  constructor
  · rintro ⟨⟨_, value⟩, member, rfl, same, filled, previous, found, differs⟩
    exact ⟨same, filled, previous, value, found, member, differs⟩
  · rintro ⟨same, filled, previous, value, found, member, differs⟩
    exact ⟨(key, value), member, rfl, same, filled, previous, found, differs⟩

/-! ### The law -/

/-- The exact effect of stripping one map into another, for every ecosystem name, the empty one
included. At a key stands what was forwarded to it, or else what the first pass left there; the keys
stand as they were, behind them the new direct ones, behind these the new forwarded ones; every key
that is longer than the name and begins with it is counted; and the log names those of them whose
bare key held another value after the first pass. The values only depend on those of the source,
whatever the order of its keys. -/
theorem stripInto_effect (source : SettingsMap) (ecosystem : String) (target : SettingsMap) :
    let stripping := source.stripInto ecosystem target
    let afterFirstPass := fun key =>
      if key ∈ source.keys ∧ ¬ Forwards ecosystem key then source.get? key else target.get? key
    (∀ key, stripping.map.get? key =
      if key ≠ "" ∧ ecosystem ++ key ∈ source.keys then source.get? (ecosystem ++ key)
      else afterFirstPass key) ∧
    stripping.map.keys = target.keys ++
      (source.keys.filter fun key => ¬ Forwards ecosystem key ∧ key ∉ target.keys) ++
      ((source.keys.filterMap (bare? ecosystem)).filter fun key =>
        key ∉ target.keys ∧ ¬ (key ∈ source.keys ∧ ¬ Forwards ecosystem key)) ∧
    stripping.remapped = (source.keys.countP fun key =>
      Forwards ecosystem key ∧ ecosystem.length < key.length) ∧
    (Entries.names stripping.overrides).Sublist source.keys ∧
    (∀ key bare, (key, bare) ∈ stripping.overrides ↔
      key = ecosystem ++ bare ∧ bare ≠ "" ∧ ∃ previous value, afterFirstPass bare = some previous ∧
        source.get? key = some value ∧ previous ≠ value) ∧
    ∀ other : SettingsMap, (∀ key, other.get? key = source.get? key) →
      ∀ key, (other.stripInto ecosystem target).map.get? key = stripping.map.get? key := by
  intro stripping afterFirstPass
  refine ⟨get?_stripInto_eq_if source ecosystem target, keys_stripInto source ecosystem target,
    remapped_stripInto source ecosystem target, ?_, fun _ _ => mem_overrides_iff, ?_⟩
  · rw [show stripping.overrides = _ from overrides_stripInto source ecosystem target]
    exact names_filterMap_logged_sublist ecosystem _ source.entries
  · intro other same key
    show _ = (source.stripInto ecosystem target).map.get? key
    rw [get?_stripInto, get?_stripInto, same, same]

/-- Three origins of one key, a repeated name and the bare name, and the same source read
backwards. -/
theorem stripInto_effect_colliding :
    let source := ofList [("p.a", "1"), ("a", "2"), ("p.p.b", "3"), ("p.", "4"), ("b", "5"),
      ("p.b", "5")]
    let other := ofList source.toList.reverse
    let target := ofList [("b", "0"), ("c", "9")]
    let stripping := source.stripInto "p." target
    stripping.map = ofList [("b", "5"), ("c", "9"), ("a", "1"), ("p.b", "3")] ∧
      stripping.remapped = 3 ∧ stripping.overrides = [("p.a", "a")] ∧
      (∀ key, other.get? key = source.get? key) ∧
      ∀ key, (other.stripInto "p." target).map.get? key = stripping.map.get? key := by
  intro source other target stripping
  have same : ∀ key, other.get? key = source.get? key :=
    (sameContents_iff other source).mp (by decide)
  obtain ⟨-, -, -, -, -, ordered⟩ := stripInto_effect source "p." target
  exact ⟨by decide, by decide, by decide, same, ordered other same⟩

end SettingsMap

end ConnectorSettings
