/-
This file proves what stripping an ecosystem's name does to the value at a key, and that looking a
setting up in the stripped map, under no names at all, is looking it up in the original map under
that one name.

The two passes of stripping write entries of one map, whose keys are distinct. So each pass can be
read off key by key: a key that is left after stripping gets its value from the one forwarded key it
stands for, if that is present, and otherwise from itself, unless it begins with the name.

The bare name is the exception that the lookup has to mind. It forwards the empty key, which
stripping leaves out; a setting whose own key is empty would have found it as an alias.
-/

import ConnectorSettings.Proofs.Merging
import ConnectorSettings.Proofs.Precedence
import ConnectorSettings.SettingsMap.Stripping

namespace ConnectorSettings

/-! ### Entries with distinct names -/

theorem Entries.lookup?_filter {α : Type} (keep : String → Bool) (name : String)
    (entries : List (String × α)) :
    lookup? name (entries.filter fun entry => keep entry.1) =
      if keep name then lookup? name entries else none := by
  induction entries with
  | nil => simp [lookup?]
  | cons entry rest inductionHypothesis =>
    by_cases same : entry.1 = name
    · by_cases kept : keep name <;> simp [lookup?, same, kept, inductionHypothesis]
    · by_cases kept : keep entry.1 <;> simp [lookup?, same, kept, inductionHypothesis]

namespace SettingsMap

/-! ### Keys below a name -/

/-- The key begins with the ecosystem's name. -/
def Forwards (ecosystem key : String) : Prop :=
  ∃ bare, key = ecosystem ++ bare

theorem forwarded?_eq_some_iff {ecosystem key bare : String} :
    forwarded? ecosystem key = some bare ↔ key = ecosystem ++ bare := by
  unfold forwarded?
  rw [Option.map_eq_some_iff]
  constructor
  · rintro ⟨rest, split, rfl⟩
    rw [List.isPrefixOf?_eq_some_iff_append_eq] at split
    rw [← String.toList_inj, String.toList_append, String.toList_ofList, split]
  · rintro rfl
    refine ⟨bare.toList, ?_, String.ofList_toList⟩
    rw [List.isPrefixOf?_eq_some_iff_append_eq, String.toList_append]

theorem forwarded?_append (ecosystem bare : String) :
    forwarded? ecosystem (ecosystem ++ bare) = some bare :=
  forwarded?_eq_some_iff.mpr rfl

theorem forwarded?_eq_none_iff {ecosystem key : String} :
    forwarded? ecosystem key = none ↔ ¬ Forwards ecosystem key := by
  constructor
  · rintro none ⟨bare, rfl⟩
    rw [forwarded?_append] at none
    cases none
  · intro direct
    cases found : forwarded? ecosystem key with
    | none => rfl
    | some bare => exact absurd ⟨bare, forwarded?_eq_some_iff.mp found⟩ direct

/-! ### The value at a key after stripping -/

/-- One forwarded entry sets the value at the key it stands for, and at no other. -/
theorem get?_forward (ecosystem : String) (progress : Stripping) (entry : String × String)
    (key : String) :
    (progress.forward ecosystem entry).map.get? key =
      if key ≠ "" ∧ entry.1 = ecosystem ++ key then some entry.2
      else progress.map.get? key := by
  unfold Stripping.forward
  cases found : forwarded? ecosystem entry.1 with
  | none =>
    have direct : entry.1 ≠ ecosystem ++ key := fun same =>
      forwarded?_eq_none_iff.mp found ⟨key, same⟩
    rw [if_neg fun both => direct both.2]
  | some bare =>
    have same : entry.1 = ecosystem ++ bare := forwarded?_eq_some_iff.mp found
    by_cases empty : bare = ""
    · subst empty
      have other : ¬ (key ≠ "" ∧ entry.1 = ecosystem ++ key) := by
        rintro ⟨filled, equal⟩
        exact filled ((String.append_right_inj ecosystem).mp (equal.symm.trans same))
      rw [if_neg other]
      rfl
    · have filled : bare.isEmpty = false := by simp [empty]
      simp only [filled, Bool.false_eq_true, if_false]
      rw [get?_insert, same]
      by_cases equal : bare = key
      · rw [if_pos equal, if_pos ⟨equal ▸ empty, congrArg _ equal⟩]
      · rw [if_neg equal, if_neg fun both => equal ((String.append_right_inj _).mp both.2)]

/-- A run of forwarded entries with distinct keys. The head is looked up first, and being distinct
from the tail's keys it is never overwritten. -/
theorem get?_foldl_forward (ecosystem : String) (progress : Stripping)
    {entries : List (String × String)} (distinct : (Entries.names entries).Nodup)
    (key : String) :
    (entries.foldl (Stripping.forward ecosystem) progress).map.get? key =
      (if key = "" then none else Entries.lookup? (ecosystem ++ key) entries).or
        (progress.map.get? key) := by
  induction entries generalizing progress with
  | nil => by_cases empty : key = "" <;> simp [empty, Entries.lookup?]
  | cons entry rest inductionHypothesis =>
    obtain ⟨fresh, distinct⟩ := List.nodup_cons.mp distinct
    rw [List.foldl_cons, inductionHypothesis _ distinct, get?_forward]
    by_cases empty : key = ""
    · simp [empty]
    · by_cases same : entry.1 = ecosystem ++ key
      · have absent : Entries.lookup? (ecosystem ++ key) rest = none :=
          (Entries.lookup?_eq_none_iff _ _).mpr (same ▸ fresh)
        rw [if_neg empty, if_neg empty, if_pos ⟨empty, same⟩, absent, Entries.lookup?,
          if_pos same]
        rfl
      · rw [if_neg empty, if_neg empty, if_neg fun both => same both.2, Entries.lookup?,
          if_neg same]

/-- What stripping one map into another leaves at a key: what was forwarded to it, or else what
stood there directly, or else what the target held. -/
theorem get?_stripInto (source : SettingsMap) (ecosystem : String) (target : SettingsMap)
    (key : String) :
    (source.stripInto ecosystem target).map.get? key =
      (if key = "" then none else source.get? (ecosystem ++ key)).or
        ((if (forwarded? ecosystem key).isNone then source.get? key else none).or
          (target.get? key)) := by
  have directDistinct : (Entries.names
      (source.entries.filter fun entry => (forwarded? ecosystem entry.1).isNone)).Nodup :=
    source.distinct.sublist (List.filter_sublist.map Prod.fst)
  unfold stripInto
  rw [get?_foldl_forward ecosystem _ source.distinct, get?_insertAll _ directDistinct,
    Entries.lookup?_filter fun name => (forwarded? ecosystem name).isNone]
  rfl

theorem get?_stripped (source : SettingsMap) (ecosystem key : String) :
    (source.stripped ecosystem).get? key =
      (if key = "" then none else source.get? (ecosystem ++ key)).or
        (if (forwarded? ecosystem key).isNone then source.get? key else none) := by
  show (source.stripInto ecosystem empty).map.get? key = _
  rw [get?_stripInto, get?_empty, Option.or_none]

/-- At a key that does not begin with the name, the forwarded value wins over the direct one. -/
theorem get?_stripped_of_direct (source : SettingsMap) {ecosystem key : String}
    (direct : ¬ Forwards ecosystem key) (named : key = "" → source.get? ecosystem = none) :
    (source.stripped ecosystem).get? key =
      (source.get? (ecosystem ++ key)).or (source.get? key) := by
  rw [get?_stripped, forwarded?_eq_none_iff.mpr direct]
  by_cases empty : key = ""
  · subst empty
    rw [if_pos rfl, String.append_empty, named rfl]
    rfl
  · rw [if_neg empty]
    rfl

end SettingsMap

/-! ### Lookups in the stripped map -/

/-- The origin that takes an origin's place once the ecosystem's name is gone from the keys. -/
def Origin.withoutName (ecosystem : String) : Origin → Origin
  | .scopedAlias key => .scopedKey ((SettingsMap.forwarded? ecosystem key).getD key)
  | .aliasKey key => .canonicalKey ((SettingsMap.forwarded? ecosystem key).getD key)
  | origin => origin

def Found.withoutName (ecosystem : String) (found : Found) : Found :=
  { found with origin := found.origin.withoutName ecosystem }

theorem KeyLayout.keyFor_ne_empty (layout : KeyLayout) (suffix scope : String) :
    layout.keyFor suffix scope ≠ "" := by
  intro empty
  have length := congrArg (fun text : String => text.toList.length) empty
  cases layout <;> simp [KeyLayout.keyFor, String.toList_append] at length

namespace View

open SettingsMap (Forwards forwarded?_append get?_stripped_of_direct)

/-- The value at one key, as a lookup finds it. -/
def foundAt (map : SettingsMap) (key : String) (origin : String → Origin) : Option Found :=
  (map.get? key).map fun value => ⟨Text.trimmed value, origin key⟩

/-- The layers of a lookup in a map without ecosystem names: the scoped key, if a scope is set, over
the unscoped key over the fallback. -/
def layered (map : SettingsMap) (layout : KeyLayout) (setting : Setting)
    (scope : Option String) : Option Found :=
  let base := (foundAt map (layout.key setting.suffix) .canonicalKey).or
    (setting.fallback.map fun text => ⟨text, .fallback⟩)
  match scope with
  | none => base
  | some name =>
    if name = "" then base
    else (foundAt map (layout.keyFor setting.suffix name) .scopedKey).or base

theorem firstPresent_block_nil (map : SettingsMap) (key : String)
    (forwarded direct : String → Origin) :
    firstPresent map (block [] key forwarded direct) = foundAt map key direct := by
  show firstPresent map [(key, direct key)] = _
  rw [firstPresent_cons, firstPresent, Option.or_none]
  rfl

theorem firstPresent_block_singleton (map : SettingsMap) (ecosystem key : String)
    (forwarded direct : String → Origin) :
    firstPresent map (block [ecosystem] key forwarded direct) =
      (foundAt map (ecosystem ++ key) forwarded).or (foundAt map key direct) := by
  show firstPresent map [(ecosystem ++ key, forwarded (ecosystem ++ key)), (key, direct key)] = _
  rw [firstPresent_cons, firstPresent_cons, firstPresent, Option.or_none]
  rfl

/-- One block of the ranking, before and after stripping. Both origins of the block under the name
turn into the origin of the key alone. -/
theorem firstPresent_block_stripped (map : SettingsMap) {ecosystem key : String}
    (direct : ¬ Forwards ecosystem key) (named : key = "" → map.get? ecosystem = none)
    (forwardedOrigin directOrigin : String → Origin)
    (forwardedTurns : (forwardedOrigin (ecosystem ++ key)).withoutName ecosystem =
      directOrigin key)
    (directStays : (directOrigin key).withoutName ecosystem = directOrigin key) :
    firstPresent (map.stripped ecosystem) (block [] key forwardedOrigin directOrigin) =
      (firstPresent map (block [ecosystem] key forwardedOrigin directOrigin)).map
        (Found.withoutName ecosystem) := by
  rw [firstPresent_block_nil, firstPresent_block_singleton]
  unfold foundAt
  rw [get?_stripped_of_direct map direct named, Option.map_or, Option.map_or, Option.map_map,
    Option.map_map]
  simp only [Function.comp_def, Found.withoutName, forwardedTurns, directStays]

theorem firstPresent_ranking_stripped (layout : KeyLayout) (scope : Option String)
    (map : SettingsMap) (setting : Setting) {ecosystem : String}
    (direct : ¬ Forwards ecosystem (layout.key setting.suffix))
    (scopedDirect : ∀ name, scope = some name → name ≠ "" →
      ¬ Forwards ecosystem (layout.keyFor setting.suffix name))
    (named : layout.key setting.suffix = "" → map.get? ecosystem = none) :
    firstPresent (map.stripped ecosystem) (ranking layout [] setting scope) =
      (firstPresent map (ranking layout [ecosystem] setting scope)).map
        (Found.withoutName ecosystem) := by
  have base := firstPresent_block_stripped map direct named .aliasKey .canonicalKey
    (by rw [Origin.withoutName, forwarded?_append]; rfl) rfl
  cases scope with
  | none => exact base
  | some name =>
    by_cases empty : name = ""
    · rw [ranking, ranking, if_pos empty, if_pos empty]
      exact base
    · have narrowed := firstPresent_block_stripped map (scopedDirect name rfl empty)
        (fun none => absurd none (layout.keyFor_ne_empty setting.suffix name)) .scopedAlias
        .scopedKey (by rw [Origin.withoutName, forwarded?_append]; rfl) rfl
      rw [ranking, ranking, if_neg empty, if_neg empty, firstPresent_append,
        firstPresent_append, narrowed, base, Option.map_or]

theorem findInMap_overMap_nil (layout : KeyLayout) (settings : List Setting)
    (environment : Environment) (scope : Option String) (map : SettingsMap)
    (setting : Setting) :
    (overMap layout settings environment scope [] map).findInMap setting =
      layered map layout setting scope := by
  rw [findInMap_overMap]
  cases scope with
  | none => rw [ranking, firstPresent_block_nil, layered]
  | some name =>
    by_cases empty : name = ""
    · rw [ranking, if_pos empty, List.nil_append, firstPresent_block_nil]
      simp only [layered, if_pos empty]
    · rw [ranking, if_neg empty, firstPresent_append, firstPresent_block_nil,
        firstPresent_block_nil, Option.or_assoc]
      simp only [layered, if_neg empty]

theorem underVariable_map (environment : Environment) (setting : Setting)
    (otherwise : Option Found) (ecosystem : String) :
    underVariable environment setting (otherwise.map (Found.withoutName ecosystem)) =
      (underVariable environment setting otherwise).map
        (Option.map (Found.withoutName ecosystem)) := by
  unfold underVariable
  cases setting.variableName with
  | none => rfl
  | some name => cases reading : environment.read name <;> simp only [reading] <;> rfl

/-- Looking a setting up in the stripped map, without ecosystem names, is looking it up in the
original map under the one name that was stripped, and it goes through the layers one by one. The
setting's keys must not begin with the name themselves; and where its unscoped key is empty, the map
must not hold the bare name, which stripping does not forward. -/
theorem find_stripped (layout : KeyLayout) (settings : List Setting)
    (environment : Environment) (scope : Option String) (map : SettingsMap) (setting : Setting)
    (ecosystem : String) (direct : ¬ Forwards ecosystem (layout.key setting.suffix))
    (scopedDirect : ∀ name, scope = some name → name ≠ "" →
      ¬ Forwards ecosystem (layout.keyFor setting.suffix name))
    (named : layout.key setting.suffix = "" → map.get? ecosystem = none) :
    (overMap layout settings environment scope [] (map.stripped ecosystem)).find setting =
        ((overMap layout settings environment scope [ecosystem] map).find setting).map
          (Option.map (Found.withoutName ecosystem)) ∧
      (overMap layout settings environment scope [] (map.stripped ecosystem)).find setting =
        underVariable environment setting
          (layered (map.stripped ecosystem) layout setting scope) := by
  have fallbackStays : (setting.fallback.map fun text => (⟨text, .fallback⟩ : Found)).map
      (Found.withoutName ecosystem) = setting.fallback.map fun text => ⟨text, .fallback⟩ := by
    rw [Option.map_map]
    rfl
  constructor
  · have same : (overMap layout settings environment scope [] (map.stripped ecosystem)).findInMap
        setting = ((overMap layout settings environment scope [ecosystem] map).findInMap
          setting).map (Found.withoutName ecosystem) := by
      rw [findInMap_overMap, findInMap_overMap,
        firstPresent_ranking_stripped layout scope map setting direct scopedDirect named,
        Option.map_or, fallbackStays]
    rw [find_eq_underVariable, find_eq_underVariable, same]
    exact underVariable_map environment setting _ ecosystem
  · rw [find_eq_underVariable, findInMap_overMap_nil]
    rfl

/-- Two spellings of one scoped key, of which the forwarded one decides before and after. -/
theorem find_stripped_collision :
    let map := SettingsMap.ofList [("spark.hadoop.fs.s3a.bucket.logs.endpoint", "a"),
      ("fs.s3a.bucket.logs.endpoint", "b"), ("fs.s3a.endpoint", "c")]
    let stripped := (overMap S3.layout S3.table .empty (some "logs") []
      (map.stripped "spark.hadoop.")).find S3.endpoint
    ¬ Forwards "spark.hadoop." (S3.layout.key S3.endpoint.suffix) ∧
      ¬ Forwards "spark.hadoop." (S3.layout.keyFor S3.endpoint.suffix "logs") ∧
      stripped = ((overMap S3.layout S3.table .empty (some "logs") ["spark.hadoop."] map).find
        S3.endpoint).map (Option.map (Found.withoutName "spark.hadoop.")) ∧
      stripped = .ok (some ⟨"a", .scopedKey "fs.s3a.bucket.logs.endpoint"⟩) := by
  intro map stripped
  have direct : ¬ Forwards "spark.hadoop." (S3.layout.key S3.endpoint.suffix) :=
    SettingsMap.forwarded?_eq_none_iff.mp (by decide)
  have scopedDirect : ¬ Forwards "spark.hadoop." (S3.layout.keyFor S3.endpoint.suffix "logs") :=
    SettingsMap.forwarded?_eq_none_iff.mp (by decide)
  have law := find_stripped S3.layout S3.table .empty (some "logs") map S3.endpoint
    "spark.hadoop." direct
    (fun name same _ => Option.some.inj same ▸ scopedDirect)
    (fun empty => absurd empty (by decide))
  exact ⟨direct, scopedDirect, law.1, law.2.trans (congrArg Except.ok (by decide))⟩

/-- The empty key is where the two lookups part: the bare name stands for it as an alias, and
stripping leaves the bare name out. -/
theorem find_stripped_empty_key :
    let layout := KeyLayout.scopeFirst "" "bucket"
    let setting : Setting := ⟨"setting", "", none, none, false⟩
    let map := SettingsMap.ofList [("p.", "v")]
    ¬ Forwards "p." (layout.key setting.suffix) ∧
      (overMap layout [setting] .empty none ["p."] map).find setting =
        .ok (some ⟨"v", .aliasKey "p."⟩) ∧
      (overMap layout [setting] .empty none [] (map.stripped "p.")).find setting = .ok none := by
  refine ⟨SettingsMap.forwarded?_eq_none_iff.mp (by decide), ?_, ?_⟩
  · exact congrArg Except.ok (by decide)
  · exact congrArg Except.ok (by decide)

end View

end ConnectorSettings
