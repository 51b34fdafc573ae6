/-
This file settles when stripping a map beforehand changes nothing for a connector that goes on
recognising the ecosystem's name. Stripping takes the name off once. A key that carries it twice is
read by nobody in the original map, and in the stripped map it has become an alias and decides.

Whether such a key matters depends on the keys of the map only: it surfaces for the settings whose
lookup would come to its position in the stripped map. Where none does, typed settings before and
after are the same, or the same text is refused for the same reason. Where one does, there are
values for the very same keys for which they are not.
-/

import ConnectorSettings.Proofs.Scopes

namespace ConnectorSettings

/-! ### Outcomes up to the key -/

/-- Both succeed with the same value, or both refuse the same text, whatever keys it was read
under. -/
inductive SameUpToKey {α : Type} : Except SettingError α → Except SettingError α → Prop
  | succeed (value : α) : SameUpToKey (.ok value) (.ok value)
  | refuse (key other text expected : String) :
      SameUpToKey (.error (.malformed key text expected)) (.error (.malformed other text expected))

namespace SameUpToKey

theorem eq_of_ok {α : Type} {value other : α} (same : SameUpToKey (.ok value) (.ok other)) :
    value = other := by
  cases same
  rfl

theorem map {α β : Type} {left right : Except SettingError α} (f : α → β)
    (same : SameUpToKey left right) : SameUpToKey (f <$> left) (f <$> right) := by
  cases same with
  | succeed value => exact .succeed (f value)
  | refuse key other text expected => exact .refuse key other text expected

/-- A map that keeps the two values apart can be taken off again. -/
theorem of_map {α β : Type} {left right : Except SettingError α} {f : α → β}
    (injective : ∀ value other, left = .ok value → right = .ok other → f value = f other →
      value = other)
    (same : SameUpToKey (f <$> left) (f <$> right)) : SameUpToKey left right := by
  cases left with
  | error error =>
    cases right with
    | error other =>
      cases same with
      | refuse key other text expected => exact .refuse key other text expected
    | ok other => cases same
  | ok value =>
    cases right with
    | error error => cases same
    | ok other =>
      rw [injective value other rfl rfl (eq_of_ok same)]
      exact .succeed other

/-- A pass over a list: the same step by step, so the same in whole. -/
theorem mapM {α β : Type} {items : List α} {left right : α → Except SettingError β}
    (same : ∀ item ∈ items, SameUpToKey (left item) (right item)) :
    SameUpToKey (items.mapM left) (items.mapM right) := by
  induction items with
  | nil => exact .succeed []
  | cons item rest inductionHypothesis =>
    have later := inductionHypothesis fun other member =>
      same other (List.mem_cons_of_mem _ member)
    have here := same item List.mem_cons_self
    rw [List.mapM_cons, List.mapM_cons]
    generalize left item = leftHead, right item = rightHead at here
    generalize rest.mapM left = leftRest, rest.mapM right = rightRest at later
    cases here with
    | refuse key other text expected => exact .refuse key other text expected
    | succeed value =>
      cases later with
      | refuse key other text expected => exact .refuse key other text expected
      | succeed values => exact .succeed (value :: values)

end SameUpToKey

/-! ### Lookups with the same text -/

namespace View

theorem malformed_of_find_error {view : View} {setting : Setting} {error : SettingError}
    (outcome : view.find setting = .error error) :
    ∃ key text expected, error = .malformed key text expected := by
  unfold find at outcome
  cases named : setting.variableName with
  | none =>
    rw [named] at outcome
    cases outcome
  | some name =>
    cases reading : view.environment.read name with
    | undecodable bytes =>
      simp only [named, reading] at outcome
      exact ⟨_, _, _, (Except.error.inj outcome).symm⟩
    | present value =>
      simp only [named, reading] at outcome
      cases outcome
    | absent =>
      simp only [named, reading] at outcome
      cases outcome

/-- Lookups that find the same text give rows that read the same, up to the key. -/
theorem sameUpToKey_readRow {left right : View} {row : TypedRow}
    (same : Option.map Found.value <$> left.find row.setting =
      Option.map Found.value <$> right.find row.setting) :
    SameUpToKey (left.readRow row) (right.readRow row) := by
  cases leftOutcome : left.find row.setting with
  | error error =>
    cases rightOutcome : right.find row.setting with
    | error other =>
      rw [leftOutcome, rightOutcome] at same
      obtain rfl : error = other := Except.error.inj same
      obtain ⟨key, text, expected, rfl⟩ := malformed_of_find_error leftOutcome
      rw [readRow_of_error leftOutcome, readRow_of_error rightOutcome]
      exact .refuse key key text expected
    | ok found =>
      rw [leftOutcome, rightOutcome] at same
      cases same
  | ok found =>
    cases rightOutcome : right.find row.setting with
    | error other =>
      rw [leftOutcome, rightOutcome] at same
      cases same
    | ok other =>
      rw [leftOutcome, rightOutcome] at same
      have texts : found.map Found.value = other.map Found.value := Except.ok.inj same
      cases found with
      | none =>
        obtain rfl : other = none := Option.map_eq_none_iff.mp texts.symm
        rw [readRow_of_unset leftOutcome, readRow_of_unset rightOutcome]
        exact .succeed none
      | some found =>
        obtain ⟨twin, rfl, text⟩ := Option.map_eq_some_iff.mp texts.symm
        rw [readRow_of_found leftOutcome, readRow_of_found rightOutcome, text]
        refine SameUpToKey.map some ?_
        unfold Kind.readValue
        cases row.kind.read? found.value with
        | none => exact .refuse _ _ _ _
        | some value => exact .succeed value

theorem text_underVariable (environment : Environment) (setting : Setting)
    {left right : Option Found} (same : left.map Found.value = right.map Found.value) :
    Option.map Found.value <$> underVariable environment setting left =
      Option.map Found.value <$> underVariable environment setting right := by
  unfold underVariable
  cases setting.variableName with
  | none => exact congrArg Except.ok same
  | some name =>
    cases reading : environment.read name with
    | present value => simp only [reading]
    | undecodable bytes => simp only [reading]
    | absent =>
      simp only [reading]
      exact congrArg Except.ok same

end View

/-! ### Where a repeated name surfaces -/

namespace Connector

open View SettingsMap

/-- A key that carries the ecosystem's name twice decides the setting once the name is stripped: the
scoped key does in any case, the unscoped key if no scoped key is before it. -/
def Surfaces (connector : Connector) (keys : List String) (setting : Setting) :
    Option String → Prop
  | none => ecosystem ++ (ecosystem ++ connector.layout.key setting.suffix) ∈ keys
  | some scope =>
    let bare := connector.layout.key setting.suffix
    let narrowed := connector.layout.keyFor setting.suffix scope
    if scope = "" then ecosystem ++ (ecosystem ++ bare) ∈ keys
    else ecosystem ++ (ecosystem ++ narrowed) ∈ keys ∨
      (ecosystem ++ (ecosystem ++ bare) ∈ keys ∧ ecosystem ++ narrowed ∉ keys ∧
        narrowed ∉ keys)

/-- The text that one block of a ranking gives. -/
def blockText (map : SettingsMap) (key : String) : Option String :=
  (map.get? (ecosystem ++ key)).or (map.get? key)

/-- The text that the ranking of a setting gives, as it stands in the map. -/
def rankedText (connector : Connector) (map : SettingsMap) (setting : Setting) :
    Option String → Option String
  | none => blockText map (connector.layout.key setting.suffix)
  | some scope =>
    if scope = "" then blockText map (connector.layout.key setting.suffix)
    else (blockText map (connector.layout.keyFor setting.suffix scope)).or
      (blockText map (connector.layout.key setting.suffix))

theorem value_firstPresent_block (map : SettingsMap) (key : String)
    (forwarded direct : String → Origin) :
    (firstPresent map (block [ecosystem] key forwarded direct)).map Found.value =
      (blockText map key).map Text.trimmed := by
  rw [firstPresent_block_singleton, foundAt, foundAt, blockText, Option.map_or, Option.map_or,
    Option.map_map, Option.map_map]
  rfl

theorem value_firstPresent_ranking (connector : Connector) (map : SettingsMap)
    (setting : Setting) (scope : Option String) :
    (firstPresent map (ranking connector.layout [ecosystem] setting scope)).map Found.value =
      (connector.rankedText map setting scope).map Text.trimmed := by
  cases scope with
  | none => exact value_firstPresent_block map _ _ _
  | some scope =>
    by_cases empty : scope = ""
    · rw [ranking, if_pos empty, rankedText, if_pos empty]
      exact value_firstPresent_block map _ _ _
    · rw [ranking, if_neg empty, rankedText, if_neg empty, firstPresent_append, Option.map_or,
        Option.map_or, value_firstPresent_block, value_firstPresent_block]

/-- The text a lookup finds in the map is that of its ranking, or else the fallback. -/
theorem value_findInMap (connector : Connector) (map : SettingsMap) (environment : Environment)
    (setting : Setting) (scope : Option String) :
    (((connector.view map environment).withScope scope).findInMap setting).map Found.value =
      ((connector.rankedText map setting scope).map Text.trimmed).or setting.fallback := by
  rw [view_withScope, findInMap_overMap, Option.map_or, value_firstPresent_ranking, Option.map_map]
  exact congrArg _ Option.map_id'

theorem keyUnder_ne_empty (connector : Connector) (suffix : String) (scope : Option String) :
    connector.layout.keyUnder suffix scope ≠ "" := by
  intro empty
  have front := connector.layout.stem_prefix_keyUnder suffix scope
  rw [empty] at front
  revert front
  cases connector <;> decide

/-- Stripping puts the key that carries the name twice in front of the block. -/
theorem blockText_stripped (connector : Connector) (map : SettingsMap) (suffix : String)
    (scope : Option String) :
    let key := connector.layout.keyUnder suffix scope
    blockText (map.stripped ecosystem) key =
      (map.get? (ecosystem ++ (ecosystem ++ key))).or (blockText map key) := by
  intro key
  have named : (map.stripped ecosystem).get? (ecosystem ++ key) =
      map.get? (ecosystem ++ (ecosystem ++ key)) := by
    have filled : ecosystem ++ key ≠ "" := fun empty =>
      absurd ((String.append_eq_empty_iff).mp empty).1 (by decide)
    rw [get?_stripped, if_neg filled, forwarded?_append]
    exact Option.or_none
  rw [blockText, named, get?_stripped_of_direct map (connector.not_forwards_keyUnder suffix scope)
    fun empty => absurd empty (connector.keyUnder_ne_empty suffix scope)]
  rfl

/-- A repeated name that the map does not hold is no loss to the block. -/
theorem blockText_stripped_of_absent {connector : Connector} {map : SettingsMap}
    (suffix : String) (scope : Option String)
    (absent : below ecosystem 2 (connector.layout.keyUnder suffix scope) ∉ map.keys) :
    blockText (map.stripped ecosystem) (connector.layout.keyUnder suffix scope) =
      blockText map (connector.layout.keyUnder suffix scope) := by
  have nothing : map.get? (ecosystem ++ (ecosystem ++ connector.layout.keyUnder suffix scope)) =
      none := (get?_eq_none_iff map _).mpr absent
  rw [blockText_stripped, nothing, Option.none_or]

/-- One that the map holds decides the block and keeps off whatever is behind it. -/
theorem blockText_stripped_of_held {connector : Connector} {map : SettingsMap}
    (suffix : String) (scope : Option String)
    (held : below ecosystem 2 (connector.layout.keyUnder suffix scope) ∈ map.keys)
    (behind : Option String) :
    (blockText (map.stripped ecosystem) (connector.layout.keyUnder suffix scope)).or behind =
      map.get? (below ecosystem 2 (connector.layout.keyUnder suffix scope)) := by
  rw [blockText_stripped, Option.or_assoc]
  show (map.get? (below ecosystem 2 (connector.layout.keyUnder suffix scope))).or _ = _
  cases found : map.get? (below ecosystem 2 (connector.layout.keyUnder suffix scope)) with
  | none => exact absurd held ((get?_eq_none_iff map _).mp found)
  | some text => rfl

/-- Where no repeated name surfaces, stripping changes no text. -/
theorem rankedText_stripped (connector : Connector) (map : SettingsMap) (setting : Setting)
    {scope : Option String} (clear : ¬ connector.Surfaces map.keys setting scope) :
    connector.rankedText (map.stripped ecosystem) setting scope =
      connector.rankedText map setting scope := by
  have wide : ecosystem ++ (ecosystem ++ connector.layout.key setting.suffix) ∉ map.keys →
      blockText (map.stripped ecosystem) (connector.layout.key setting.suffix) =
        blockText map (connector.layout.key setting.suffix) :=
    blockText_stripped_of_absent setting.suffix none
  cases scope with
  | none => exact wide clear
  | some scope =>
    by_cases empty : scope = ""
    · rw [Surfaces, if_pos empty] at clear
      rw [rankedText, rankedText, if_pos empty, if_pos empty]
      exact wide clear
    · rw [Surfaces, if_neg empty] at clear
      obtain ⟨absent, later⟩ := not_or.mp clear
      have narrow : blockText (map.stripped ecosystem)
          (connector.layout.keyFor setting.suffix scope) =
            blockText map (connector.layout.keyFor setting.suffix scope) :=
        blockText_stripped_of_absent setting.suffix (some scope) absent
      rw [rankedText, rankedText, if_neg empty, if_neg empty, narrow]
      cases found : blockText map (connector.layout.keyFor setting.suffix scope) with
      | some text => rfl
      | none =>
        obtain ⟨forwarded, bare⟩ := Option.or_eq_none_iff.mp found
        rw [get?_eq_none_iff] at forwarded bare
        rw [wide fun present => later ⟨present, forwarded, bare⟩]

/-- Where a repeated name surfaces, the text under it is what the stripped map gives, whatever
values the keys have. -/
theorem exists_surfaced {connector : Connector} {keys : List String} {setting : Setting}
    {scope : Option String} (surfaces : connector.Surfaces keys setting scope) :
    ∃ place, below ecosystem 2 (connector.layout.keyUnder setting.suffix place) ∈ keys ∧
      ∀ map : SettingsMap, map.keys = keys →
        connector.rankedText (map.stripped ecosystem) setting scope =
          map.get? (below ecosystem 2 (connector.layout.keyUnder setting.suffix place)) := by
  have wide : ∀ {map : SettingsMap},
      ecosystem ++ (ecosystem ++ connector.layout.key setting.suffix) ∈ map.keys →
      blockText (map.stripped ecosystem) (connector.layout.key setting.suffix) =
        map.get? (ecosystem ++ (ecosystem ++ connector.layout.key setting.suffix)) :=
    fun held => Option.or_none.symm.trans (blockText_stripped_of_held setting.suffix none held none)
  cases scope with
  | none => exact ⟨none, surfaces, fun map same => wide (same ▸ surfaces)⟩
  | some scope =>
    by_cases empty : scope = ""
    · rw [Surfaces, if_pos empty] at surfaces
      refine ⟨none, surfaces, fun map same => ?_⟩
      rw [rankedText, if_pos empty]
      exact wide (same ▸ surfaces)
    · rw [Surfaces, if_neg empty] at surfaces
      by_cases narrow : ecosystem ++ (ecosystem ++
          connector.layout.keyFor setting.suffix scope) ∈ keys
      · refine ⟨some scope, narrow, fun map same => ?_⟩
        rw [rankedText, if_neg empty]
        exact blockText_stripped_of_held setting.suffix (some scope) (same ▸ narrow) _
      · obtain ⟨later, forwarded, bare⟩ := surfaces.resolve_left narrow
        refine ⟨none, later, fun map same => ?_⟩
        subst same
        have unchanged : blockText (map.stripped ecosystem)
            (connector.layout.keyFor setting.suffix scope) =
              blockText map (connector.layout.keyFor setting.suffix scope) :=
          blockText_stripped_of_absent setting.suffix (some scope) narrow
        have silent : blockText map (connector.layout.keyFor setting.suffix scope) = none := by
          rw [← get?_eq_none_iff] at forwarded bare
          rw [blockText, forwarded, bare]
          rfl
        rw [rankedText, if_neg empty, unchanged, silent]
        exact wide later

/-! ### The law where nothing surfaces -/

theorem resolve_stripped_of_clear {connector : Connector} {map : SettingsMap}
    {scope : Option String} (environment : Environment)
    (clear : ∀ setting ∈ connector.settings, ¬ connector.Surfaces map.keys setting scope) :
    SameUpToKey (connector.resolve map scope environment)
      (connector.resolve (map.stripped ecosystem) scope environment) := by
  have rows : ∀ row ∈ connector.rows,
      SameUpToKey (((connector.view map environment).withScope scope).readRow row)
        (((connector.view (map.stripped ecosystem) environment).withScope scope).readRow row) := by
    intro row rowMember
    have member : row.setting ∈ connector.settings := setting_mem_of_row rowMember
    refine sameUpToKey_readRow ?_
    rw [find_eq_underVariable, find_eq_underVariable]
    refine text_underVariable environment row.setting ?_
    rw [value_findInMap, value_findInMap,
      connector.rankedText_stripped map row.setting (clear row.setting member)]
  refine SameUpToKey.of_map (f := TypedSettings.values) ?_ ?_
  · intro left right leftOutcome rightOutcome values
    refine TypedSettings.values_injective ?_ values
    exact (scope_typed leftOutcome).trans (scope_typed rightOutcome).symm
  · rw [resolve, resolve, values_typed, values_typed]
    exact SameUpToKey.mapM rows

end Connector

/-! ### Values that tell -/

/-- A text that can be read as the kind. -/
def Kind.sample : Kind → String
  | text => "a"
  | flag => "true"
  | integer => "1"
  | duration => "1s"
  | retryMode => "legacy"
  | authType => "OAuth"

/-- A text that no kind reads as its sample, nor any setting as its fallback. -/
def odd : String := "~"

/-- The text can be read as the kind, and not as what the odd text is read as. -/
def Kind.Plain (kind : Kind) (text : String) : Prop :=
  (kind.read? text).isSome ∧ kind.read? text ≠ kind.read? odd

instance (kind : Kind) (text : String) : Decidable (kind.Plain text) :=
  inferInstanceAs (Decidable (_ ∧ _))

namespace SettingsMap

/-- The keys of a map with other values. -/
def withValues (map : SettingsMap) (value : String → String) : SettingsMap where
  entries := map.entries.map fun entry => (entry.1, value entry.1)
  distinct := by
    have names : Entries.names (map.entries.map fun entry => (entry.1, value entry.1)) =
        Entries.names map.entries := by
      rw [Entries.names, Entries.names, List.map_map]
      rfl
    rw [names]
    exact map.distinct

theorem keys_withValues (map : SettingsMap) (value : String → String) :
    (map.withValues value).keys = map.keys := by
  rw [keys, keys, withValues, Entries.names, Entries.names, List.map_map]
  rfl

theorem get?_withValues (map : SettingsMap) (value : String → String) {key text : String}
    (found : (map.withValues value).get? key = some text) : text = value key := by
  obtain ⟨entries, distinct⟩ := map
  show text = value key
  have lookups : Entries.lookup? key (entries.map fun entry => (entry.1, value entry.1)) =
      some text := found
  clear found distinct
  induction entries with
  | nil => cases lookups
  | cons entry rest inductionHypothesis =>
    rw [List.map_cons, Entries.lookup?] at lookups
    by_cases same : entry.1 = key
    · rw [if_pos same, same] at lookups
      exact (Option.some.inj lookups).symm
    · rw [if_neg same] at lookups
      exact inductionHypothesis lookups

end SettingsMap

namespace View

/-- A text found in the map stands under one of the ranking's keys. -/
theorem mem_ranking_of_found {map : SettingsMap} {ranking : List (String × Origin)}
    {found : Found} (given : firstPresent map ranking = some found) :
    ∃ candidate ∈ ranking, ∃ value, map.get? candidate.1 = some value ∧
      found.value = Text.trimmed value := by
  have yields := yields_of_firstPresent map none ranking
  rw [given] at yields
  generalize result : (some found).or _ = outcome at yields
  cases yields with
  | key before split skipped present =>
    obtain rfl := Option.some.inj result
    exact ⟨_, split ▸ List.mem_append_right _ List.mem_cons_self, _, present, rfl⟩
  | fallback absent => cases result

end View

namespace Connector

open View SettingsMap

/-- Samples and fallbacks of a connector are plain. -/
theorem plain_of_row {connector : Connector} {row : TypedRow} (member : row ∈ connector.rows) :
    row.kind.Plain (Text.trimmed row.kind.sample) ∧
      ∀ fallback, row.setting.fallback = some fallback → row.kind.Plain fallback := by
  have all : ∀ row ∈ connector.rows, row.kind.Plain (Text.trimmed row.kind.sample) ∧
      ∀ fallback ∈ row.setting.fallback, row.kind.Plain fallback := by
    cases connector <;> decide
  exact all row member

/-- Since a key gives its setting back, every key can be given a text that its setting reads. -/
theorem exists_samples (connector : Connector) :
    ∃ value : String → String, ∀ row ∈ connector.rows, ∀ place times,
      value (below ecosystem times (connector.layout.keyUnder row.setting.suffix place)) =
        row.kind.sample := by
  classical
  let Owns (key : String) (row : TypedRow) : Prop := row ∈ connector.rows ∧
    ∃ place times, key = below ecosystem times (connector.layout.keyUnder row.setting.suffix place)
  refine ⟨fun key => if owned : ∃ row, Owns key row then owned.choose.kind.sample else "", ?_⟩
  intro row member place times
  have owned : ∃ owner, Owns (below ecosystem times
      (connector.layout.keyUnder row.setting.suffix place)) owner :=
    ⟨row, member, place, times, rfl⟩
  obtain ⟨ownerMember, otherPlace, otherTimes, same⟩ := owned.choose_spec
  obtain ⟨settings, -, -⟩ := address_injective (setting_mem_of_row member)
    (setting_mem_of_row ownerMember) same
  refine (dif_pos owned).trans ?_
  rw [← row_of_setting member ownerMember settings]

/-- A map whose ranking of a row holds nothing but samples lets the row be read, and as nothing the
odd text is read as. -/
theorem readRow_of_samples {connector : Connector} {map : SettingsMap} {scope : Option String}
    {row : TypedRow} (member : row ∈ connector.rows)
    (samples : ∀ candidate ∈ ranking connector.layout [ecosystem] row.setting scope,
      ∀ value, map.get? candidate.1 = some value → value = row.kind.sample) :
    ∃ outcome, ((connector.view map .empty).withScope scope).readRow row = .ok outcome ∧
      ∀ value, outcome = some value → row.kind.read? odd ≠ some value := by
  obtain ⟨plainSample, plainFallback⟩ := plain_of_row member
  have silent : Silent .empty row.setting := fun _ _ => rfl
  have found : ((connector.view map .empty).withScope scope).find row.setting =
      .ok ((firstPresent map (ranking connector.layout [ecosystem] row.setting scope)).or
        (row.setting.fallback.map fun text => ⟨text, .fallback⟩)) :=
    find_overMap_of_silent connector.layout connector.settings scope [ecosystem] map silent
  have plain : ∀ result, (firstPresent map (ranking connector.layout [ecosystem] row.setting
      scope)).or (row.setting.fallback.map fun text => ⟨text, .fallback⟩) = some result →
        row.kind.Plain result.value := by
    intro result given
    cases first : firstPresent map (ranking connector.layout [ecosystem] row.setting scope) with
    | some other =>
      rw [first] at given
      obtain rfl := Option.some.inj given
      obtain ⟨candidate, candidateMember, value, present, text⟩ := mem_ranking_of_found first
      rw [text, samples candidate candidateMember value present]
      exact plainSample
    | none =>
      rw [first, Option.none_or] at given
      obtain ⟨text, fallback, rfl⟩ := Option.map_eq_some_iff.mp given
      exact plainFallback text fallback
  cases result : (firstPresent map (ranking connector.layout [ecosystem] row.setting scope)).or
      (row.setting.fallback.map fun text => ⟨text, .fallback⟩) with
  | none =>
    rw [result] at found
    exact ⟨none, readRow_of_unset found, fun value unset => by cases unset⟩
  | some other =>
    rw [result] at found
    obtain ⟨readable, apart⟩ := plain other result
    obtain ⟨value, read⟩ := Option.isSome_iff_exists.mp readable
    refine ⟨some value, ?_, ?_⟩
    · rw [readRow_of_found found, Kind.readValue, read]
      rfl
    · rintro _ ⟨⟩ same
      exact apart (read.trans same.symm)

/-- A row whose ranking holds the odd text is read as that, or not at all. -/
theorem readRow_of_odd {connector : Connector} {map : SettingsMap} {scope : Option String}
    {row : TypedRow} (ranked : connector.rankedText map row.setting scope = some odd)
    {outcome : Option TypedValue}
    (given : ((connector.view map .empty).withScope scope).readRow row = .ok outcome) :
    ∃ value, outcome = some value ∧ row.kind.read? odd = some value := by
  have text := connector.value_findInMap map .empty row.setting scope
  rw [ranked] at text
  obtain ⟨found, inMap, written⟩ := Option.map_eq_some_iff.mp text
  have outOfMap : ((connector.view map .empty).withScope scope).find row.setting =
      .ok (some found) := by
    rw [find_eq_underVariable, inMap]
    exact underVariable_of_silent (fun _ _ => rfl) _
  have plain : found.value = odd := written.trans (by decide : Text.trimmed odd = odd)
  rw [readRow_of_found outOfMap, Kind.readValue, plain] at given
  cases read : row.kind.read? odd with
  | some value =>
    rw [read] at given
    exact ⟨value, (Except.ok.inj given).symm, rfl⟩
  | none =>
    rw [read] at given
    cases given

/-- Where a repeated name surfaces, the keys can be given values that the stripping tells: the odd
text under the key that surfaces, and samples everywhere else. -/
theorem exists_apart {connector : Connector} {map : SettingsMap} {setting : Setting}
    {scope : Option String} (member : setting ∈ connector.settings)
    (surfaces : connector.Surfaces map.keys setting scope) :
    ∃ values : SettingsMap, values.keys = map.keys ∧
      ¬ SameUpToKey (connector.resolve values scope .empty)
        (connector.resolve (values.stripped ecosystem) scope .empty) := by
  rw [← connector.rows_settings] at member
  obtain ⟨row, rowMember, rfl⟩ := List.mem_map.mp member
  obtain ⟨place, held, surfaced⟩ := exists_surfaced surfaces
  obtain ⟨sample, samples⟩ := connector.exists_samples
  generalize named : below ecosystem 2
    (connector.layout.keyUnder row.setting.suffix place) = repeated at held surfaced
  let values := map.withValues (Function.update sample repeated odd)
  have keys : values.keys = map.keys := map.keys_withValues _
  -- Without the stripping nothing looks under the repeated name, so every row reads a sample.
  have readable : ∀ other ∈ connector.rows, ∃ outcome,
      ((connector.view values .empty).withScope scope).readRow other = .ok outcome ∧
        ∀ value, outcome = some value → other.kind.read? odd ≠ some value := by
    intro other otherMember
    refine readRow_of_samples otherMember fun candidate candidateMember value present => ?_
    obtain ⟨under, times, -, bound, address⟩ := place_of_mem_ranking candidateMember
    have unlike : candidate.1 ≠ repeated := by
      rw [address, ← named]
      intro same
      obtain ⟨-, -, count⟩ := address_injective (setting_mem_of_row otherMember)
        (setting_mem_of_row rowMember) same
      omega
    rw [get?_withValues map _ present, Function.update_of_ne unlike, address,
      samples other otherMember]
  -- With it, this row finds the odd text.
  have ranked : connector.rankedText (values.stripped ecosystem) row.setting scope = some odd := by
    rw [surfaced values keys]
    cases present : values.get? repeated with
    | none => exact absurd (keys ▸ held) ((get?_eq_none_iff values repeated).mp present)
    | some text => rw [get?_withValues map _ present, Function.update_self]
  refine ⟨values, keys, fun same => ?_⟩
  obtain ⟨before, passed⟩ := mapM_ok fun other otherMember =>
    let ⟨outcome, given, _⟩ := readable other otherMember
    ⟨outcome, given⟩
  have passes := SameUpToKey.map TypedSettings.values same
  rw [resolve, resolve, values_typed, values_typed, passed] at passes
  generalize given : connector.rows.mapM
    ((connector.view (values.stripped ecosystem) .empty).withScope scope).readRow = after at passes
  cases passes
  have unchanged := eq_of_mapM_ok passed given row rowMember
  obtain ⟨outcome, read, apart⟩ := readable row rowMember
  obtain ⟨value, found, odd⟩ := readRow_of_odd ranked (unchanged.symm.trans read)
  exact apart value found odd

/-! ### The law -/

/-- Stripping a map beforehand changes no typed settings and no refusal, whatever the values of its
keys are and whatever the environment is, exactly if no key that carries the ecosystem's name twice
surfaces for a setting. -/
theorem resolve_stripped_iff (connector : Connector) (scope : Option String) (map : SettingsMap) :
    (∀ (values : SettingsMap) (environment : Environment), values.keys = map.keys →
      SameUpToKey (connector.resolve values scope environment)
        (connector.resolve (values.stripped ecosystem) scope environment)) ↔
      ∀ setting ∈ connector.settings, ¬ connector.Surfaces map.keys setting scope := by
  constructor
  · intro same setting member surfaces
    obtain ⟨values, keys, apart⟩ := exists_apart member surfaces
    exact apart (same values .empty keys)
  · intro clear values environment keys
    exact resolve_stripped_of_clear environment (keys ▸ clear)

/-- A key that carries the ecosystem's name twice is passed over for the default endpoint, and gives
the endpoint once the name is stripped. -/
theorem resolve_stripped_repeated_name :
    let map := SettingsMap.ofList [("spark.hadoop.spark.hadoop.fs.s3a.endpoint", "x")]
    ¬ SameUpToKey (Connector.s3.resolve map none .empty)
      (Connector.s3.resolve (map.stripped ecosystem) none .empty) := by
  intro map same
  have endpoints := same.map fun settings : TypedSettings => settings.values[3]?
  have before : (fun settings : TypedSettings => settings.values[3]?) <$>
      Connector.s3.resolve map none .empty = .ok (some (some (.text ""))) := rfl
  have after : (fun settings : TypedSettings => settings.values[3]?) <$>
      Connector.s3.resolve (map.stripped ecosystem) none .empty =
        .ok (some (some (.text "x"))) := rfl
  rw [before, after] at endpoints
  exact absurd endpoints.eq_of_ok (by decide)

end Connector

end ConnectorSettings
