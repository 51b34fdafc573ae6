/-
This file proves that the key shown for a setting is the key to set.

The report and the table of keys both show the key that the view shows. It is one of the setting's
candidates and, as the ends of keys tell, no candidate of another setting, whatever the ecosystem
names are. So where the setting is unset, a value that is written under its key is found by this
setting and by no other, and settings that can be read as their types still can be afterwards.
-/

import ConnectorSettings.KeyTable
import ConnectorSettings.Proofs.Secrecy

namespace ConnectorSettings

/-! ### Unset settings -/

namespace View

/-- Neither a key of the setting is present nor its variable. -/
structure Unset (view : View) (setting : Setting) : Prop where
  silent : Silent view.environment setting
  absent : ∀ candidate ∈ view.candidates setting, view.map.get? candidate.1 = none

theorem find_of_silent {view : View} {setting : Setting}
    (silent : Silent view.environment setting) :
    view.find setting = .ok (view.findInMap setting) := by
  rw [find_eq_underVariable, underVariable_of_silent silent]

theorem find_of_unset {view : View} {setting : Setting} (unset : view.Unset setting) :
    view.find setting = .ok (setting.fallback.map fun text => ⟨text, .fallback⟩) := by
  rw [find_of_silent unset.silent, findInMap_eq_or, firstPresent_eq_none _ unset.absent,
    Option.none_or]

theorem absent_of_firstPresent {map : SettingsMap} {ranking : List (String × Origin)}
    (nothing : firstPresent map ranking = none) :
    ∀ candidate ∈ ranking, map.get? candidate.1 = none := by
  induction ranking with
  | nil => exact fun _ member => absurd member List.not_mem_nil
  | cons candidate rest inductionHypothesis =>
    rw [firstPresent_cons, Option.or_eq_none_iff, Option.map_eq_none_iff] at nothing
    intro other member
    rcases List.mem_cons.mp member with rfl | later
    · exact nothing.1
    · exact inductionHypothesis nothing.2 other later

/-- Where a lookup finds nothing, the setting is unset. -/
theorem unset_of_find {view : View} {setting : Setting} (nothing : view.find setting = .ok none) :
    view.Unset setting := by
  have silent : Silent view.environment setting := by
    intro name named
    rw [find_eq_underVariable] at nothing
    simp only [underVariable, named] at nothing
    cases reading : view.environment.read name with
    | absent => rfl
    | present value => simp [reading] at nothing
    | undecodable bytes => simp [reading] at nothing
  rw [find_of_silent silent, findInMap_eq_or] at nothing
  exact ⟨silent, absent_of_firstPresent (Option.or_eq_none_iff.mp (Except.ok.inj nothing)).1⟩

/-! ### The shown key among the candidates -/

/-- Every candidate belongs to the scope of the view or to no scope. -/
theorem front_of_mem_candidates {view : View} {setting : Setting} {candidate : String × Origin}
    (member : candidate ∈ view.candidates setting) :
    ∃ place front, (place = none ∨ place = view.scope) ∧
      candidate.1 = front ++ view.layout.keyUnder setting.suffix place := by
  rcases List.mem_append.mp member with narrow | wide
  · unfold scopedCandidates at narrow
    cases placed : view.scope with
    | none =>
      rw [placed] at narrow
      cases narrow
    | some scope =>
      rw [placed] at narrow
      obtain ⟨front, -, same⟩ := front_of_mem_block narrow
      exact ⟨some scope, front, .inr rfl, same⟩
  · obtain ⟨front, -, same⟩ := front_of_mem_block wide
    exact ⟨none, front, .inl rfl, same⟩

theorem shownKey_mem_candidates (view : View) (setting : Setting) :
    ∃ candidate ∈ view.candidates setting, candidate.1 = view.shownKey setting := by
  unfold candidates shownKey
  cases placed : view.scope with
  | none =>
    refine ⟨_, List.mem_append_right _ (List.mem_append_right _ (List.mem_singleton_self _)), rfl⟩
  | some scope =>
    rw [scopedCandidates, placed]
    refine ⟨_, List.mem_append_left _ (List.mem_append_right _ (List.mem_singleton_self _)), rfl⟩

/-- The shown key of a setting is no candidate of another one. -/
theorem shownKey_ne_candidate {connector : Connector} {view : View}
    (built : view.layout = connector.layout) {setting other : Setting}
    (member : setting ∈ connector.settings) (otherMember : other ∈ connector.settings)
    (differ : other ≠ setting) {candidate : String × Origin}
    (ranked : candidate ∈ view.candidates other) : view.shownKey setting ≠ candidate.1 := by
  obtain ⟨place, front, placed, spelled⟩ := front_of_mem_candidates ranked
  rw [spelled, shownKey, built]
  have apart := (connector.tellsApart setting member other otherMember (Ne.symm differ)).ne
    (.inr rfl) placed "" front
  rwa [String.empty_append] at apart

/-! ### Writing under the shown key -/

/-- The view after a value has been written under a key. -/
def insert (view : View) (key value : String) : View :=
  { view with map := view.map.insert key value }

/-- Where no key of a ranking is present, the only one that is written is found. -/
theorem firstPresent_insert_of_absent {map : SettingsMap} {ranking : List (String × Origin)}
    (absent : ∀ candidate ∈ ranking, map.get? candidate.1 = none) {key : String}
    (ranked : ∃ candidate ∈ ranking, candidate.1 = key) (value : String) :
    ∃ origin, (key, origin) ∈ ranking ∧
      firstPresent (map.insert key value) ranking = some ⟨Text.trimmed value, origin⟩ := by
  induction ranking with
  | nil => exact absurd ranked.choose_spec.1 List.not_mem_nil
  | cons first rest inductionHypothesis =>
    obtain ⟨name, origin⟩ := first
    rw [firstPresent_cons, SettingsMap.get?_insert]
    by_cases same : key = name
    · rw [if_pos same]
      exact ⟨origin, same ▸ List.mem_cons_self, rfl⟩
    · obtain ⟨candidate, member, rfl⟩ := ranked
      have later : candidate ∈ rest := (List.mem_cons.mp member).resolve_left fun here =>
        same (congrArg Prod.fst here)
      obtain ⟨origin, listed, found⟩ := inductionHypothesis
        (fun other member => absent other (List.mem_cons_of_mem _ member)) ⟨candidate, later, rfl⟩
      rw [if_neg same, absent _ List.mem_cons_self, found]
      exact ⟨origin, List.mem_cons_of_mem _ listed, rfl⟩

/-- The setting finds the value, without the blanks around it. -/
theorem find_insert_shownKey {view : View} {setting : Setting} (unset : view.Unset setting)
    (value : String) :
    ∃ origin, origin.name? = some (view.shownKey setting) ∧
      (view.insert (view.shownKey setting) value).find setting =
        .ok (some ⟨Text.trimmed value, origin⟩) := by
  obtain ⟨origin, ranked, found⟩ := firstPresent_insert_of_absent unset.absent
    (view.shownKey_mem_candidates setting) value
  have inMap : (view.insert (view.shownKey setting) value).findInMap setting =
      some ⟨Text.trimmed value, origin⟩ := by
    rw [findInMap_eq_or]
    exact congrArg (Option.or · _) found
  refine ⟨origin, name?_of_mem_candidates ranked, ?_⟩
  rw [find_eq_underVariable, inMap]
  exact underVariable_of_silent unset.silent _

/-- Every other setting finds what it found. -/
theorem find_insert_other {connector : Connector} {view : View}
    (built : view.layout = connector.layout) {setting other : Setting}
    (member : setting ∈ connector.settings) (otherMember : other ∈ connector.settings)
    (differ : other ≠ setting) (value : String) :
    (view.insert (view.shownKey setting) value).find other = view.find other := by
  have same : firstPresent (view.map.insert (view.shownKey setting) value)
      (view.candidates other) = firstPresent view.map (view.candidates other) :=
    firstPresent_congr fun candidate ranked => by
      rw [SettingsMap.get?_insert,
        if_neg (shownKey_ne_candidate built member otherMember differ ranked)]
  rw [find_eq_underVariable, find_eq_underVariable, findInMap_eq_or, findInMap_eq_or, ← same]
  rfl

/-! ### Texts of settings -/

/-- The text that is found for a setting, if any. -/
def textOf (view : View) (setting : Setting) : Except SettingError (Option String) :=
  Option.map Found.value <$> view.find setting

theorem unset_of_textOf {view : View} {setting : Setting}
    (nothing : view.textOf setting = .ok none) : view.Unset setting := by
  obtain ⟨found, outcome, missing⟩ := map_eq_ok_iff.mp nothing
  rw [Option.map_eq_none_iff.mp missing] at outcome
  exact unset_of_find outcome

theorem textOf_of_unset {view : View} {setting : Setting} (unset : view.Unset setting)
    (bare : setting.fallback = none) : view.textOf setting = .ok none := by
  rw [textOf, find_of_unset unset, bare]
  rfl

theorem textOf_insert_shownKey {view : View} {setting : Setting} (unset : view.Unset setting)
    (value : String) :
    (view.insert (view.shownKey setting) value).textOf setting =
      .ok (some (Text.trimmed value)) := by
  obtain ⟨origin, -, found⟩ := find_insert_shownKey unset value
  rw [textOf, found]
  rfl

theorem textOf_insert_other {connector : Connector} {view : View}
    (built : view.layout = connector.layout) {setting other : Setting}
    (member : setting ∈ connector.settings) (otherMember : other ∈ connector.settings)
    (differ : other ≠ setting) (value : String) :
    (view.insert (view.shownKey setting) value).textOf other = view.textOf other := by
  rw [textOf, find_insert_other built member otherMember differ, textOf]

/-- A setting that is read as a text has the text that is found for it. -/
theorem textOf_of_readRow {view : View} {setting : Setting} {value : Option String}
    (read : view.readRow ⟨setting, .text⟩ = .ok (value.map .text)) :
    view.textOf setting = .ok value := by
  unfold textOf
  cases outcome : view.find setting with
  | error error =>
    rw [readRow_of_error outcome] at read
    cases read
  | ok found =>
    cases found with
    | none =>
      rw [readRow_of_unset outcome] at read
      have nothing : value = none := Option.map_eq_none_iff.mp (Except.ok.inj read).symm
      rw [nothing]
      rfl
    | some found =>
      rw [readRow_of_found outcome] at read
      obtain ⟨text, given, same⟩ := Option.map_eq_some_iff.mp (Except.ok.inj read).symm
      rw [given, TypedValue.text.inj same]
      rfl

theorem demand_of_textOf {view : View} {setting : Setting} {value : Option String}
    (given : view.textOf setting = .ok value) :
    view.demand String setting =
      match value with
      | some text => .ok text
      | none => .error (.missing (view.shownKey setting)) := by
  obtain ⟨found, outcome, rfl⟩ := map_eq_ok_iff.mp given
  unfold demand read
  rw [outcome]
  cases found <;> rfl

/-- The text that is found for a setting, or else another one. -/
def textOr (view : View) (other : Setting → String) (setting : Setting) : String :=
  match view.textOf setting with
  | .ok (some text) => text
  | _ => other setting

theorem textOr_of_textOf {view : View} {setting : Setting} {value : Option String}
    (given : view.textOf setting = .ok value) (other : Setting → String) :
    view.textOr other setting = value.getD (other setting) := by
  rw [textOr, given]
  cases value <;> rfl

end View

namespace Connector

open View

/-- Writing under the shown key of a setting that is read as a text refuses no row. -/
theorem typed_insert {connector : Connector} {view : View}
    (built : view.layout = connector.layout) {setting : Setting}
    (member : ⟨setting, .text⟩ ∈ connector.rows) (unset : view.Unset setting)
    {settings : TypedSettings} (given : connector.typed view = .ok settings) (value : String) :
    ∃ others, connector.typed (view.insert (view.shownKey setting) value) = .ok others := by
  have valid : connector.validate view = .ok () := by
    rw [validate_eq_typed, given]
    rfl
  have passes := (connector.validate_eq_ok_iff view).mp valid
  suffices connector.validate (view.insert (view.shownKey setting) value) = .ok () by
    rw [validate_eq_typed] at this
    obtain ⟨others, typed, -⟩ := map_eq_ok_iff.mp this
    exact ⟨others, typed⟩
  refine (connector.validate_eq_ok_iff _).mpr fun row rowMember => ?_
  by_cases same : row.setting = setting
  · have sameRow : row = ⟨setting, .text⟩ := row_of_setting rowMember member same
    obtain ⟨origin, -, found⟩ := find_insert_shownKey unset value
    rw [sameRow]
    refine ⟨_, found, ?_⟩
    rintro _ ⟨⟩
    rfl
  · obtain ⟨found, outcome, readable⟩ := passes row rowMember
    refine ⟨found, ?_, readable⟩
    rw [find_insert_other built (setting_mem_of_row member) (setting_mem_of_row rowMember) same,
      outcome]

theorem readRow_of_typed {connector : Connector} {view : View} {settings : TypedSettings}
    (given : connector.typed view = .ok settings) :
    List.Forall₂ (fun row value => view.readRow row = .ok value) connector.rows
      settings.values := by
  refine mapM_eq_ok_iff.mp ?_
  rw [← values_typed, given]
  rfl

/-- Building the typed settings never fails for a missing value. -/
theorem typed_ne_missing (connector : Connector) (view : View) (key : String) :
    connector.typed view ≠ .error (.missing key) := by
  intro failed
  have invalid : connector.validate view = .error (.missing key) := by
    rw [validate_eq_typed, failed]
    rfl
  obtain ⟨_, _, _, -, -, refused⟩ := (connector.validate_eq_error_iff view _).mp invalid
  cases refused

/-- A call on typed settings that reports a missing key has got its settings. -/
theorem settings_of_missing {α β : Type} {connector : Connector} {view : View}
    {outcome : Except SettingError β} {wrap : β → TypedSettings}
    (typed : connector.typed view = wrap <$> outcome) {call : β → Except SettingError α}
    {key : String} (failed : outcome >>= call = .error (.missing key)) :
    ∃ settings, outcome = .ok settings ∧ call settings = .error (.missing key) := by
  refine (bind_eq_error_iff.mp failed).resolve_left fun failed => ?_
  exact connector.typed_ne_missing view key (typed.trans (map_eq_error_iff.mpr failed))

end Connector

/-! ### The keys of the report and of the table -/

/-- The key that the table shows for a scope. -/
def KeyTable.Row.keyUnder (row : KeyTable.Row) (scope : Option String) : String :=
  match scope.filter fun name => !name.isEmpty with
  | some _ => row.scopedKey
  | none => row.key

namespace Connector

open View

theorem keys_of_report {connector : Connector} {view : View}
    (sameSettings : view.settings = connector.settings) {showSecrets : Bool} {report : Report}
    (reported : Report.ofView connector view showSecrets = .ok report) :
    report.rows.map (fun row => (row.setting, row.key)) =
      connector.settings.map fun setting => (setting.name, view.shownKey setting) := by
  rw [Report.ofView_eq_mapM, sameSettings] at reported
  obtain ⟨rows, passed, rfl⟩ := map_eq_ok_iff.mp reported
  exact map_of_mapM_ofFound passed _ _ fun _ _ => rfl

theorem keys_of_table (connector : Connector) (scope : Option String) (aliases : List String)
    (inputs : Inputs) :
    (KeyTable.ofConnector connector scope).rows.map (fun row => (row.setting, row.keyUnder scope)) =
      connector.settings.map fun setting =>
        (setting.name, (connector.seen scope aliases inputs).shownKey setting) := by
  have place : (connector.seen scope aliases inputs).scope =
      scope.filter fun name => !name.isEmpty := rfl
  have built : (connector.seen scope aliases inputs).layout = connector.layout := rfl
  simp only [KeyTable.ofConnector, List.map_map]
  refine List.map_congr_left fun setting _ => ?_
  simp only [Function.comp_apply, KeyTable.Row.keyUnder, KeyTable.shownScope, shownKey, place,
    built]
  cases scope.filter fun name => !name.isEmpty <;> rfl

end Connector

end ConnectorSettings
