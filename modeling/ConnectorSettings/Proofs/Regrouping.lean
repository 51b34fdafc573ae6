/-
This file proves that maps can be merged in any grouping.

Merging is a run of writes, and a map says as much as the pairs it was collected from; so a run of
writes may stop anywhere, and what has been written so far may be written again as one map. The keys
come out in the same order as the values come out the same. Collecting sources is a pass that loads
them and merges what it has loaded, and it inherits the law, errors included: a run of files can be
collected for itself, and one file that says what the run says can stand in its place.
-/

import ConnectorSettings.Proofs.Collection

namespace ConnectorSettings

namespace SettingsMap

/-! ### The laws of merging -/

@[simp]
theorem merge_empty (map : SettingsMap) : map.merge empty = map := rfl

theorem merge_assoc (first second third : SettingsMap) :
    (first.merge second).merge third = first.merge (second.merge third) := by
  have collected : second.merge third = ofList (second.entries ++ third.entries) := by
    rw [ofList_append, ofList_entries, ofList_entries]
  rw [collected, merge_ofList]
  exact (insertAll_append first second.entries third.entries).symm

/-- The other map's new keys come behind those that were there. -/
theorem keys_merge (map other : SettingsMap) :
    (map.merge other).keys = map.keys ++ other.keys.filter fun key => key ∉ map.keys :=
  keys_insertAll_of_distinct map other.distinct

theorem merge_self (map : SettingsMap) : map.merge map = map := by
  refine ext_of_views ?_ fun key => ?_
  · have none : (map.keys.filter fun key => key ∉ map.keys) = [] :=
      List.filter_eq_nil_iff.mpr fun key held => by simp [held]
    rw [keys_merge, none, List.append_nil]
  · rw [get?_merge, Option.or_self]

theorem get?_merge_eq_if (map other : SettingsMap) (key : String) :
    (map.merge other).get? key = if key ∈ other.keys then other.get? key else map.get? key := by
  rw [get?_merge]
  by_cases held : key ∈ other.keys
  · obtain ⟨value, found⟩ := get?_of_mem_keys held
    rw [if_pos held, found]
    rfl
  · rw [if_neg held, (other.get?_eq_none_iff key).mpr held, Option.none_or]

instance : Std.Associative merge := ⟨merge_assoc⟩

end SettingsMap

namespace Source

/-! ### Loading in groups -/

variable {α : Type}

/-- Loads sources of any kind and merges what they hold, in their order. -/
def loadMerged (load : α → Except SourceError SettingsMap) (sources : List α) :
    Except SourceError SettingsMap :=
  List.foldl SettingsMap.merge .empty <$> sources.mapM load

/-- `collect` for sources of any kind. -/
def collectFrom (load : α → Except SourceError SettingsMap) (sources : List α)
    (overrides : List String) : Except SourceError SettingsMap := do
  let map ← loadMerged load sources
  let pairs ← overrides.mapM parseOverride
  return map.insertAll pairs

theorem collect_eq_collectFrom (files : Files) (paths overrides : List String) :
    collect files paths overrides = collectFrom (load files) paths overrides := by
  unfold collect collectFrom loadMerged
  cases paths.mapM (load files) <;> rfl

/-- Where nothing is overridden, collecting files is loading and merging them. -/
theorem collect_nil (files : Files) (paths : List String) :
    collect files paths [] = loadMerged (load files) paths := by
  rw [collect_eq_collectFrom]
  unfold collectFrom
  cases loadMerged (load files) paths <;> rfl

theorem loadMerged_cons (load : α → Except SourceError SettingsMap) (source : α) (rest : List α) :
    loadMerged load (source :: rest) =
      (do return (← load source).merge (← loadMerged load rest)) := by
  unfold loadMerged
  rw [List.mapM_cons]
  cases load source with
  | error _ => rfl
  | ok map =>
    cases rest.mapM load with
    | error _ => rfl
    | ok others =>
      have grouped : others.foldl SettingsMap.merge (map.merge .empty) =
          map.merge (others.foldl SettingsMap.merge .empty) := List.foldl_assoc
      refine congrArg Except.ok ?_
      rw [← grouped, List.foldl_cons, SettingsMap.empty_merge, SettingsMap.merge_empty]

theorem loadMerged_append (load : α → Except SourceError SettingsMap) (left right : List α) :
    loadMerged load (left ++ right) =
      (do return (← loadMerged load left).merge (← loadMerged load right)) := by
  induction left with
  | nil =>
    rw [List.nil_append]
    show _ = (do return SettingsMap.empty.merge (← loadMerged load right))
    cases loadMerged load right with
    | error _ => rfl
    | ok map => exact congrArg Except.ok (SettingsMap.empty_merge map).symm
  | cons source rest inductionHypothesis =>
    rw [List.cons_append, loadMerged_cons, loadMerged_cons, inductionHypothesis]
    cases load source with
    | error _ => rfl
    | ok first =>
      cases loadMerged load rest with
      | error _ => rfl
      | ok second =>
        cases loadMerged load right with
        | error _ => rfl
        | ok third => exact congrArg Except.ok (SettingsMap.merge_assoc first second third).symm

/-- Runs of sources may be merged first, each for itself. -/
theorem loadMerged_flatten (load : α → Except SourceError SettingsMap) (runs : List (List α)) :
    loadMerged load runs.flatten = loadMerged (loadMerged load) runs := by
  induction runs with
  | nil => rfl
  | cons run rest inductionHypothesis =>
    rw [List.flatten_cons, loadMerged_append, loadMerged_cons, inductionHypothesis]

/-- A source that holds what a run of sources comes to can stand for the run. -/
theorem loadMerged_replaced {load : α → Except SourceError SettingsMap} {run : List α} {source : α}
    (same : load source = loadMerged load run) (before after : List α) :
    loadMerged load (before ++ source :: after) = loadMerged load (before ++ (run ++ after)) := by
  rw [loadMerged_append, loadMerged_append load before, loadMerged_append load run,
    loadMerged_cons, same]

end Source

/-! ### Merging in any grouping -/

/-- Merging maps is associative, the order of the keys included; the empty map on either side
changes nothing, nor does a map that is merged into itself; and at every key the other map decides
if it has the key. So files that are collected in runs, however they are grouped, come to what they
come to one by one, and so they do where one file holds what a run of them comes to. -/
theorem merging_regroups (first second third : SettingsMap) :
    ((first.merge second).merge third = first.merge (second.merge third) ∧
      SettingsMap.empty.merge first = first ∧ first.merge .empty = first ∧
      first.merge first = first ∧
      (first.merge second).keys =
        first.keys ++ second.keys.filter (fun key => key ∉ first.keys) ∧
      ∀ key, (first.merge second).get? key =
        if key ∈ second.keys then second.get? key else first.get? key) ∧
    ∀ (files : Files) (overrides : List String),
      (∀ runs : List (List String), Source.collect files runs.flatten overrides =
        Source.collectFrom (fun run => Source.collect files run []) runs overrides) ∧
      ∀ before run after path, Source.load files path = Source.collect files run [] →
        Source.collect files (before ++ path :: after) overrides =
          Source.collect files (before ++ (run ++ after)) overrides := by
  refine ⟨⟨SettingsMap.merge_assoc first second third, SettingsMap.empty_merge first,
    SettingsMap.merge_empty first, SettingsMap.merge_self first,
    SettingsMap.keys_merge first second, SettingsMap.get?_merge_eq_if first second⟩,
    fun files overrides => ⟨fun runs => ?_, fun before run after path same => ?_⟩⟩
  · simp only [Source.collect_nil]
    rw [Source.collect_eq_collectFrom, Source.collectFrom, Source.loadMerged_flatten]
    rfl
  · rw [Source.collect_nil] at same
    rw [Source.collect_eq_collectFrom, Source.collect_eq_collectFrom, Source.collectFrom,
      Source.collectFrom, Source.loadMerged_replaced same]

/-- A file holds what two others come to, in which a key is given twice and one is overridden. -/
theorem merging_regroups_file :
    let files := Files.ofTexts [("a.conf", "x 1\ny 2\n"), ("b.conf", "z 3\nx 4\n"),
      ("c.conf", "w 5\ny 6\n"), ("ab.conf", "x 4\ny 2\nz 3\n")]
    Source.load files "ab.conf" = Source.collect files ["a.conf", "b.conf"] [] ∧
      Source.collect files ["ab.conf", "c.conf"] ["z = 7"] =
        Source.collect files ["a.conf", "b.conf", "c.conf"] ["z = 7"] := by
  intro files
  have same : Source.load files "ab.conf" = Source.collect files ["a.conf", "b.conf"] [] := by
    decide +kernel
  exact ⟨same, ((merging_regroups .empty .empty .empty).2 files ["z = 7"]).2 [] ["a.conf", "b.conf"]
    ["c.conf"] "ab.conf" same⟩

end ConnectorSettings
