/-
This file proves what a settings map keeps of its history. However insertions, removals, merges and
extensions follow each other, each of them is a run of edits, and the map is known from all edits so
far: a key has the value that was written last unless it was erased since, and the keys stand in the
order of the times at which they became present for good.

The history is read from its end. One more edit matters to the key that it names and to no other,
so the law is kept by one edit after the other, and a run keeps it by induction.
-/

import ConnectorSettings.Proofs.Merging
import ConnectorSettings.SettingsMap.Edit
import Mathlib.Data.List.Perm.Subperm

namespace ConnectorSettings

/-! ### Histories -/

namespace Edit

/-- The history, oldest edit first, wrote this value to the key and has not named the key since. -/
def LastWrote (history : List Edit) (key value : String) : Prop :=
  ∃ before after, history = before ++ write key value :: after ∧ ∀ edit ∈ after, edit.key ≠ key

/-- The history leaves the key absent: it was never written, or erased since. -/
def Absent (history : List Edit) (key : String) : Prop :=
  ∀ value, ¬ LastWrote history key value

/-- The time at which the key last became present: it was absent, was written, and has not been
erased since. The time of an edit is the number of edits before it. -/
def Appeared (history : List Edit) (key : String) (time : Nat) : Prop :=
  ∃ before value after, history = before ++ write key value :: after ∧ before.length = time ∧
    Absent before key ∧ erase key ∉ after

/-- An edit of a longer history is the latest one or stands in what came before. -/
theorem concat_eq_split_iff {history before after : List Edit} {latest edit : Edit} :
    history ++ [latest] = before ++ edit :: after ↔
      (after = [] ∧ history = before ∧ latest = edit) ∨
        ∃ earlier, after = earlier ++ [latest] ∧ history = before ++ edit :: earlier := by
  rcases List.eq_nil_or_concat' after with rfl | ⟨earlier, last, rfl⟩
  · simp
  · rw [← List.cons_append, ← List.append_assoc, List.append_singleton_inj]
    constructor
    · rintro ⟨rfl, rfl⟩
      exact .inr ⟨earlier, rfl, rfl⟩
    · rintro (⟨nil, _, _⟩ | ⟨others, same, rfl⟩)
      · simp at nil
      · obtain ⟨rfl, rfl⟩ := List.append_singleton_inj.mp same
        exact ⟨rfl, rfl⟩

theorem lastWrote_concat {history : List Edit} {latest : Edit} {key value : String} :
    LastWrote (history ++ [latest]) key value ↔
      latest = write key value ∨ latest.key ≠ key ∧ LastWrote history key value := by
  unfold LastWrote
  simp only [concat_eq_split_iff]
  constructor
  · rintro ⟨before, after, ⟨rfl, rfl, rfl⟩ | ⟨earlier, rfl, rfl⟩, silent⟩
    · exact .inl rfl
    · refine .inr ⟨silent latest (by simp), before, earlier, rfl, fun edit member => ?_⟩
      exact silent edit (List.mem_append_left _ member)
  · rintro (rfl | ⟨other, before, after, rfl, silent⟩)
    · exact ⟨history, [], .inl ⟨rfl, rfl, rfl⟩, fun edit member => absurd member List.not_mem_nil⟩
    · refine ⟨before, after ++ [latest], .inr ⟨after, rfl, rfl⟩, fun edit member => ?_⟩
      rcases List.mem_append.mp member with earlier | last
      · exact silent edit earlier
      · exact List.mem_singleton.mp last ▸ other

theorem appeared_concat {history : List Edit} {latest : Edit} {key : String} {time : Nat} :
    Appeared (history ++ [latest]) key time ↔
      ((∃ value, latest = write key value) ∧ time = history.length ∧ Absent history key) ∨
        latest ≠ erase key ∧ Appeared history key time := by
  unfold Appeared
  simp only [concat_eq_split_iff]
  constructor
  · rintro ⟨before, value, after, ⟨rfl, rfl, rfl⟩ | ⟨earlier, rfl, rfl⟩, rfl, absent, kept⟩
    · exact .inl ⟨⟨value, rfl⟩, rfl, absent⟩
    · refine .inr ⟨fun erased => kept (by simp [erased]), before, value, earlier, rfl, rfl,
        absent, fun member => kept (List.mem_append_left _ member)⟩
  · rintro (⟨⟨value, rfl⟩, rfl, absent⟩ | ⟨other, before, value, after, rfl, rfl, absent, kept⟩)
    · exact ⟨history, value, [], .inl ⟨rfl, rfl, rfl⟩, rfl, absent, List.not_mem_nil⟩
    · refine ⟨before, value, after ++ [latest], .inr ⟨after, rfl, rfl⟩, rfl, absent, ?_⟩
      rintro member
      rcases List.mem_append.mp member with earlier | last
      · exact kept earlier
      · exact other (List.mem_singleton.mp last).symm

theorem lt_length_of_appeared {history : List Edit} {key : String} {time : Nat}
    (appeared : Appeared history key time) : time < history.length := by
  obtain ⟨before, value, after, rfl, rfl, -, -⟩ := appeared
  simp

/-! ### What a map keeps of its history -/

/-- The map holds at each key the value that the history wrote last, and its keys stand in the order
in which they last became present. -/
structure Kept (history : List Edit) (map : SettingsMap) : Prop where
  value_iff : ∀ key value, map.get? key = some value ↔ LastWrote history key value
  present_iff : ∀ key, key ∈ map.keys ↔ ∃ time, Appeared history key time
  ordered : map.keys.Pairwise fun left right => ∀ earlier later,
    Appeared history left earlier → Appeared history right later → earlier < later

theorem Kept.absent_iff {history : List Edit} {map : SettingsMap} (kept : Kept history map)
    (key : String) : Absent history key ↔ key ∉ map.keys := by
  rw [← SettingsMap.get?_eq_none_iff, Option.eq_none_iff_forall_ne_some]
  exact forall_congr' fun value => not_congr (kept.value_iff key value).symm

theorem kept_empty : Kept [] .empty where
  value_iff key value := by
    refine ⟨nofun, fun ⟨before, after, split, _⟩ => ?_⟩
    simp at split
  present_iff key := by
    refine ⟨nofun, fun ⟨time, appeared⟩ => ?_⟩
    exact absurd (lt_length_of_appeared appeared) (Nat.not_lt_zero time)
  ordered := List.Pairwise.nil

/-- The time of a key that is present stays what it was, unless the key is erased. -/
theorem Kept.appeared_of_concat {history : List Edit} {map : SettingsMap}
    (kept : Kept history map) {latest : Edit} {key : String} (present : key ∈ map.keys)
    {time : Nat} (appeared : Appeared (history ++ [latest]) key time) :
    Appeared history key time := by
  rcases appeared_concat.mp appeared with ⟨-, -, absent⟩ | ⟨-, before⟩
  · exact absurd present ((kept.absent_iff key).mp absent)
  · exact before

theorem Kept.write {history : List Edit} {map : SettingsMap} (kept : Kept history map)
    (key value : String) : Kept (history ++ [write key value]) (map.insert key value) where
  value_iff name text := by
    rw [lastWrote_concat, SettingsMap.get?_insert, ← kept.value_iff]
    by_cases same : key = name <;> simp [same, Edit.key]
  present_iff name := by
    have times : (∃ time, Appeared (history ++ [Edit.write key value]) name time) ↔
        key = name ∧ name ∉ map.keys ∨ name ∈ map.keys := by
      simp [appeared_concat, exists_or, kept.absent_iff name, kept.present_iff name]
    rw [times, SettingsMap.keys_insert]
    by_cases present : key ∈ map.keys
    · rw [if_pos present]
      refine ⟨.inr, ?_⟩
      rintro (⟨rfl, absent⟩ | member)
      · exact absurd present absent
      · exact member
    · rw [if_neg present, List.mem_append, List.mem_singleton]
      constructor
      · rintro (member | rfl)
        · exact .inr member
        · exact .inl ⟨rfl, present⟩
      · rintro (⟨rfl, _⟩ | member)
        · exact .inr rfl
        · exact .inl member
  ordered := by
    have older : map.keys.Pairwise fun left right => ∀ earlier later,
        Appeared (history ++ [Edit.write key value]) left earlier →
          Appeared (history ++ [Edit.write key value]) right later → earlier < later := by
      refine kept.ordered.imp_of_mem fun leftMember rightMember lt earlier later first second => ?_
      exact lt earlier later (kept.appeared_of_concat leftMember first)
        (kept.appeared_of_concat rightMember second)
    rw [SettingsMap.keys_insert]
    by_cases present : key ∈ map.keys
    · rw [if_pos present]
      exact older
    · rw [if_neg present, List.pairwise_append]
      refine ⟨older, List.pairwise_singleton _ _, fun name member last lastMember => ?_⟩
      obtain rfl := List.mem_singleton.mp lastMember
      intro earlier later first second
      have lt := lt_length_of_appeared (kept.appeared_of_concat member first)
      -- The new key was absent, so its time is now.
      rcases appeared_concat.mp second with ⟨-, now, -⟩ | ⟨-, before⟩
      · exact now ▸ lt
      · exact absurd ((kept.present_iff last).mpr ⟨later, before⟩) present

theorem Kept.erase {history : List Edit} {map : SettingsMap} (kept : Kept history map)
    (key : String) : Kept (history ++ [erase key]) (map.erase key) where
  value_iff name text := by
    rw [lastWrote_concat, SettingsMap.get?_erase, ← kept.value_iff]
    by_cases same : key = name <;> simp [same, Edit.key]
  present_iff name := by
    rw [SettingsMap.keys_erase, List.mem_filter, decide_eq_true_eq, kept.present_iff]
    constructor
    · rintro ⟨⟨time, appeared⟩, other⟩
      exact ⟨time, appeared_concat.mpr (.inr ⟨fun same => other (by cases same; rfl), appeared⟩)⟩
    · rintro ⟨time, appeared⟩
      rcases appeared_concat.mp appeared with ⟨⟨_, ⟨⟩⟩, -⟩ | ⟨other, before⟩
      exact ⟨⟨time, before⟩, fun same => other (same ▸ rfl)⟩
  ordered := by
    rw [SettingsMap.keys_erase]
    refine (kept.ordered.imp_of_mem ?_).filter _
    intro left right leftMember rightMember lt earlier later first second
    exact lt earlier later (kept.appeared_of_concat leftMember first)
      (kept.appeared_of_concat rightMember second)

theorem Kept.concat {history : List Edit} {map : SettingsMap} (kept : Kept history map)
    (edit : Edit) : Kept (history ++ [edit]) (edit.apply map) := by
  cases edit with
  | write key value => exact kept.write key value
  | erase key => exact kept.erase key

theorem Kept.append {history : List Edit} {map : SettingsMap} (kept : Kept history map)
    (edits : List Edit) : Kept (history ++ edits) (edits.foldl apply map) := by
  induction edits generalizing history map with
  | nil => exact (List.append_nil history).symm ▸ kept
  | cons edit rest inductionHypothesis =>
    rw [List.append_cons]
    exact inductionHypothesis (kept.concat edit)

end Edit

/-! ### Operations -/

namespace SettingsMap

/-- What a program asks of a settings map that it changes. -/
inductive Operation where
  | insert (key value : String)
  | remove (key : String)
  | merge (other : SettingsMap)
  | extend (pairs : List (String × String))

namespace Operation

/-- The answer to an operation, and the map that it leaves. -/
def perform (map : SettingsMap) : Operation → Option String × SettingsMap
  | insert key value => map.getThenInsert? key value
  | remove key => map.getThenErase? key
  | merge other => (none, map.merge other)
  | extend pairs => (none, map.insertAll pairs)

def written (pairs : List (String × String)) : List Edit :=
  pairs.map fun pair => Edit.write pair.1 pair.2

/-- The edits that an operation comes to. -/
def edits : Operation → List Edit
  | insert key value => [.write key value]
  | remove key => [.erase key]
  | merge other => written other.entries
  | extend pairs => written pairs

/-- A finite sequence of operations. -/
def run (map : SettingsMap) (operations : List Operation) : SettingsMap :=
  operations.foldl (fun map operation => (operation.perform map).2) map

theorem foldl_apply_written (map : SettingsMap) (pairs : List (String × String)) :
    (written pairs).foldl Edit.apply map = map.insertAll pairs :=
  List.foldl_map

theorem perform_snd (map : SettingsMap) (operation : Operation) :
    (operation.perform map).2 = operation.edits.foldl Edit.apply map := by
  cases operation with
  | insert key value => exact congrArg Prod.snd (map.getThenInsert?_eq key value)
  | remove key => exact congrArg Prod.snd (map.getThenErase?_eq key)
  | merge other => exact (foldl_apply_written map other.entries).symm
  | extend pairs => exact (foldl_apply_written map pairs).symm

theorem run_eq_foldl_apply (map : SettingsMap) (operations : List Operation) :
    run map operations = (operations.flatMap edits).foldl Edit.apply map := by
  rw [List.foldl_flatMap, run]
  simp only [perform_snd]

end Operation

/-! ### Equality -/

theorem mem_keys_of_get? {map : SettingsMap} {key value : String}
    (present : map.get? key = some value) : key ∈ map.keys := by
  by_contra absent
  rw [(map.get?_eq_none_iff key).mpr absent] at present
  cases present

/-- Two maps are equal if they hold the same values, in whatever order their keys stand. -/
theorem sameContents_iff (left right : SettingsMap) :
    left.sameContents right = true ↔ ∀ key, left.get? key = right.get? key := by
  have lengths : ∀ map : SettingsMap, map.size = map.keys.length := fun map =>
    (List.length_map _).symm
  rw [sameContents, Bool.and_eq_true, beq_iff_eq, List.all_eq_true, lengths, lengths]
  constructor
  · rintro ⟨size, held⟩ key
    have found : ∀ {name value}, left.get? name = some value → right.get? name = some value :=
      fun present => eq_of_beq (held (_, _) (Entries.mem_of_lookup? present))
    have subset : left.keys ⊆ right.keys := by
      intro name member
      obtain ⟨entry, entryMember, rfl⟩ := List.mem_map.mp member
      exact mem_keys_of_get? (eq_of_beq (held entry entryMember))
    -- As many keys and no others: what the left map lacks, the right one lacks too.
    have perm : left.keys.Perm right.keys :=
      (List.subperm_of_subset left.nodup_keys subset).perm_of_length_le (Nat.le_of_eq size.symm)
    cases present : left.get? key with
    | some value => exact (found present).symm
    | none =>
      rw [get?_eq_none_iff, perm.mem_iff, ← get?_eq_none_iff] at present
      exact present.symm
  · intro same
    have perm : left.keys.Perm right.keys := by
      refine (List.perm_ext_iff_of_nodup left.nodup_keys right.nodup_keys).mpr fun key => ?_
      rw [← not_iff_not, ← get?_eq_none_iff, ← get?_eq_none_iff, same]
    refine ⟨perm.length_eq, fun entry member => ?_⟩
    rw [← same, beq_iff_eq]
    exact Entries.lookup?_of_mem left.distinct member

/-! ### The law of a run -/

/-- Whatever operations follow each other, from any pairs to begin with: no key occurs twice, and
the map keeps its history. Inserting and removing answer with the value from before; a key that is
overwritten stays where it is, a new one goes to the end, and a removal leaves the others in their
order, which equality does not look at. -/
theorem run_keeps_history (pairs : List (String × String)) (operations : List Operation) :
    let history := Operation.written pairs ++ operations.flatMap Operation.edits
    let map := Operation.run (ofList pairs) operations
    map.keys.Nodup ∧ Edit.Kept history map ∧
    (∀ key value, ((Operation.insert key value).perform map).1 = map.get? key ∧
      ((Operation.insert key value).perform map).2.keys =
        if key ∈ map.keys then map.keys else map.keys ++ [key]) ∧
    (∀ key, ((Operation.remove key).perform map).1 = map.get? key ∧
      ((Operation.remove key).perform map).2.keys = map.keys.filter fun name => name ≠ key) ∧
    ∀ other, map.sameContents other = true ↔ ∀ key, map.get? key = other.get? key := by
  intro history map
  have kept : Edit.Kept history map := by
    have start := Edit.kept_empty.append (Operation.written pairs)
    rw [Operation.foldl_apply_written] at start
    have later := start.append (operations.flatMap Operation.edits)
    rw [← Operation.run_eq_foldl_apply] at later
    exact later
  refine ⟨map.nodup_keys, kept, fun key value => ?_, fun key => ?_, map.sameContents_iff⟩
  · rw [Operation.perform, getThenInsert?_eq]
    exact ⟨rfl, map.keys_insert key value⟩
  · rw [Operation.perform, getThenErase?_eq]
    exact ⟨rfl, map.keys_erase key⟩

/-- A key that was removed and written again stands at the end. -/
example : (Operation.run (ofList [("a", "1"), ("b", "2")])
    [.insert "a" "3", .remove "a", .extend [("c", "4"), ("a", "5"), ("c", "6")]]).toList =
      [("b", "2"), ("c", "6"), ("a", "5")] := by
  decide

end SettingsMap

end ConnectorSettings
